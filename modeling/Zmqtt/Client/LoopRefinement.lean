/-
  The run task of a client refines the reconnect loop.

  `RunLoop` is the loop alone: an attempt has a result, and the connection has an end. The run task
  of a client takes several steps where the loop takes one (the handshake, the `finally` clause), and
  can be cancelled in each of them; `Simulates` says where the loop is meanwhile. In the `finally`
  clause the loop has not yet taken its last step, since a cancellation may still replace it.
-/
import Zmqtt.Client.Snapshots

namespace Zmqtt

/-! ## The loop -/

/-- The loop's name for an error: it does not tell an unexpected packet from any other exception. -/
def ClientError.loopError : ClientError → ConnectError
  | .osError => .osError
  | .timeout => .timeout
  | .connectError returnCode => .connectError returnCode
  | .disconnected => .disconnected
  | .protocolError | .other => .protocolError

/-- The reasons with which the loop stops when the run task ends. -/
def RunResult.Stops : RunResult → StopReason → Prop
  | .returned, reason => reason = .clean
  | .cancelled, reason => reason = .cancelled
  | .failed e, reason =>
      reason = .lost ∧ (e = .disconnected ∨ e = .timeout) ∨
      reason = .servingFailed ∨ reason = .reconnectFailed e.loopError ∨
      reason = .callbackFailed ∧ e = .other

namespace RunLoop

theorem notify_frame (s : RunLoop) (reason : StopReason) :
    (s.notifyConnectionRecoveryFailed reason).config = s.config ∧
      (s.notifyConnectionRecoveryFailed reason).onConnectionRecoveryFailed =
        s.onConnectionRecoveryFailed := by
  unfold notifyConnectionRecoveryFailed
  split
  · exact ⟨rfl, rfl⟩
  · exact ⟨rfl, rfl⟩

theorem reconnectRaises_frame (s : RunLoop) (e : ConnectError) :
    (s.reconnectRaises e).config = s.config ∧
      (s.reconnectRaises e).onConnectionRecoveryFailed = s.onConnectionRecoveryFailed := by
  cases e with
  | osError => exact s.notify_frame _
  | timeout => exact s.notify_frame _
  | connectError code => exact s.notify_frame _
  | disconnected => exact ⟨rfl, rfl⟩
  | protocolError => exact ⟨rfl, rfl⟩

/-- A step keeps the configuration. -/
theorem step_frame (s : RunLoop) (e : LoopEvent) : (s.step e).config = s.config ∧
    (s.step e).onConnectionRecoveryFailed = s.onConnectionRecoveryFailed := by
  have hlost : ∀ result, (s.serveEnds result).config = s.config ∧
      (s.serveEnds result).onConnectionRecoveryFailed = s.onConnectionRecoveryFailed := by
    intro result
    unfold serveEnds
    split
    · exact ⟨rfl, rfl⟩
    · exact ⟨rfl, rfl⟩
    all_goals
      split
      · exact ⟨rfl, rfl⟩
      · exact notify_frame { s with losses := s.losses + 1 } .lost
  have hattempted : ∀ attempt delay result, (s.attempted attempt delay result).config = s.config ∧
      (s.attempted attempt delay result).onConnectionRecoveryFailed =
        s.onConnectionRecoveryFailed := by
    intro attempt delay result
    unfold attempted
    split
    · exact ⟨rfl, rfl⟩
    · split
      · split
        · exact s.reconnectRaises_frame _
        · exact ⟨rfl, rfl⟩
      · split
        · exact s.reconnectRaises_frame _
        · exact ⟨rfl, rfl⟩
      · exact s.reconnectRaises_frame _
      · exact s.reconnectRaises_frame _
      · exact s.reconnectRaises_frame _
  unfold step
  split
  · exact ⟨rfl, rfl⟩
  · exact ⟨rfl, rfl⟩
  · exact hlost _
  · exact ⟨rfl, rfl⟩
  · exact ⟨rfl, rfl⟩
  · exact hattempted _ _ _
  · exact ⟨rfl, rfl⟩
  · exact ⟨rfl, rfl⟩

/-- The loop can be cancelled, or was. -/
def Cancellable (l : RunLoop) : Prop := ∀ reason, l.phase = .stopped reason → reason = .cancelled

theorem Cancellable.step {l : RunLoop} (h : l.Cancellable) :
    (l.step .cancel).phase = .stopped .cancelled ∧ (l.step .cancel).awaited = l.awaited := by
  unfold RunLoop.step
  cases hp : l.phase with
  | stopped reason =>
    obtain rfl := h reason hp
    exact ⟨hp, rfl⟩
  | _ => exact ⟨rfl, rfl⟩

end RunLoop

/-! ## The relation -/

/-- The loop takes its last step with the `finally` clause of the run task. -/
def RunLoop.StopsNext (l : RunLoop) (result : RunResult) : Prop :=
  l.Cancellable ∧ ∃ e reason, (l.step e).phase = .stopped reason ∧
    (l.step e).awaited = l.awaited ∧ result.Stops reason

/-- Where the loop is while the run task is in a phase. -/
def Simulates (phase : RunPhase) (l : RunLoop) : Prop :=
  match phase with
  | .starting | .serving => l.phase = .serving
  | .closing | .reaping .reconnects => l.phase = .closing
  | .notifyingLost e => l.phase = .notifying .lost ∧ (e = .disconnected ∨ e = .timeout)
  | .reaping (.ends result) => l.StopsNext result
  | .reconnecting r =>
      match r.phase with
      | .sleeping => l.phase = .sleeping r.attempt r.delay
      | .closing _ none => l.phase = .stopped .cancelled
      | _ => l.phase = .connecting r.attempt r.delay
  | .notifyingFailed e => l.phase = .notifying (.reconnectFailed e.loopError)
  | .ended result _ => ∃ reason, l.phase = .stopped reason ∧ result.Stops reason

/-- The loop of a client before anything happened. -/
def loopStart (config : ReconnectConfig) (callback : Bool) : RunLoop :=
  { RunLoop.start config with onConnectionRecoveryFailed := callback }

/-- The loop that the run task of a client in `phase` simulates. -/
structure Refines (config : ReconnectConfig) (callback : Bool) (s : Client) (phase : RunPhase)
    (l : RunLoop) : Prop where
  configured : s.reconnect = config ∧ s.onConnectionRecoveryFailed = callback
  reached : Reach RunLoop.step anyStep (loopStart config callback) l
  config : l.config = s.reconnect
  callback : l.onConnectionRecoveryFailed = s.onConnectionRecoveryFailed
  awaited : l.awaited = s.awaited
  simulates : Simulates phase l

/-- There is such a loop. -/
structure Client.Refined (config : ReconnectConfig) (callback : Bool) (s : Client) : Prop where
  configured : s.reconnect = config ∧ s.onConnectionRecoveryFailed = callback
  loop : ∀ phase, s.runTask = some phase → ∃ l, Refines config callback s phase l

/-- What the loop knows of a client is the same. -/
structure SameLoop (s s' : Client) : Prop where
  reconnect : s'.reconnect = s.reconnect
  callback : s'.onConnectionRecoveryFailed = s.onConnectionRecoveryFailed

theorem sameLoop_closeProtocol (s : Client) :
    SameLoop s s.closeProtocol ∧ s.closeProtocol.awaited = s.awaited := by
  unfold Client.closeProtocol
  split
  · exact ⟨⟨rfl, rfl⟩, rfl⟩
  · exact ⟨⟨rfl, rfl⟩, rfl⟩

section Steps

variable {config : ReconnectConfig} {callback : Bool} {s s' : Client} {phase phase' : RunPhase} {l : RunLoop}

/-- The run task moves, and the loop does not. -/
theorem Refines.stutter (h : Refines config callback s phase l) (hsame : SameLoop s s')
    (hawaited : s'.awaited = s.awaited) (hrun : s'.runTask = some phase')
    (hsim : Simulates phase' l) : s'.Refined config callback := by
  have hconfigured := h.configured
  rw [← hsame.reconnect, ← hsame.callback] at hconfigured
  refine ⟨hconfigured, fun phase'' hrun' => ?_⟩
  obtain rfl : phase' = phase'' := Option.some.inj (hrun.symm.trans hrun')
  exact ⟨l, hconfigured, h.reached, h.config.trans hsame.reconnect.symm,
    h.callback.trans hsame.callback.symm, h.awaited.trans hawaited.symm, hsim⟩

/-- The run task and the loop move. -/
theorem Refines.step (h : Refines config callback s phase l) (e : LoopEvent) (hsame : SameLoop s s')
    (hawaited : (l.step e).awaited = s'.awaited) (hrun : s'.runTask = some phase')
    (hsim : Simulates phase' (l.step e)) : s'.Refined config callback := by
  have hconfigured := h.configured
  rw [← hsame.reconnect, ← hsame.callback] at hconfigured
  refine ⟨hconfigured, fun phase'' hrun' => ?_⟩
  obtain rfl : phase' = phase'' := Option.some.inj (hrun.symm.trans hrun')
  obtain ⟨hconfig, hcallback⟩ := l.step_frame e
  exact ⟨l.step e, hconfigured, h.reached.tail ⟨e, trivial, rfl⟩,
    hconfig.trans (h.config.trans hsame.reconnect.symm),
    hcallback.trans (h.callback.trans hsame.callback.symm), hawaited, hsim⟩

theorem cancellable_of_phase {p : LoopPhase} (hp : l.phase = p) (hrunning : ∀ reason, p ≠ .stopped reason) :
    l.Cancellable :=
  fun reason h => absurd (hp.symm.trans h) (hrunning reason)

theorem cancellable_of_cancelled (hp : l.phase = .stopped .cancelled) : l.Cancellable := by
  intro reason h
  rw [hp] at h
  exact (LoopPhase.stopped.inj h).symm

/-- Until it has ended the run task can be cancelled, and so can the loop. -/
theorem Simulates.cancellable (h : Simulates phase l) (hrunning : ∀ result b, phase ≠ .ended result b) :
    l.Cancellable := by
  unfold Simulates at h
  split at h
  · exact cancellable_of_phase h fun reason h => by cases h
  · exact cancellable_of_phase h fun reason h => by cases h
  · exact cancellable_of_phase h fun reason h => by cases h
  · exact cancellable_of_phase h fun reason h => by cases h
  · exact cancellable_of_phase h.1 fun reason h => by cases h
  · exact h.1
  · split at h
    · exact cancellable_of_phase h fun reason h => by cases h
    · exact cancellable_of_cancelled h
    · exact cancellable_of_phase h fun reason h => by cases h
  · exact cancellable_of_phase h fun reason h => by cases h
  · exact absurd rfl (hrunning _ _)

theorem stopsNext_of_cancelled (hp : l.phase = .stopped .cancelled) : l.StopsNext .cancelled := by
  have hc := cancellable_of_cancelled hp
  exact ⟨hc, .cancel, .cancelled, hc.step.1, hc.step.2, rfl⟩

/-- The run task is cancelled, and the loop with it. -/
theorem Refines.cancel (h : Refines config callback s phase l) (hrunning : ∀ result b, phase ≠ .ended result b)
    (hsame : SameLoop s s') (hawaited : s'.awaited = s.awaited) (hrun : s'.runTask = some phase')
    (hsim : ∀ l : RunLoop, l.phase = .stopped .cancelled → Simulates phase' l) :
    s'.Refined config callback := by
  obtain ⟨hp, ha⟩ := (h.simulates.cancellable hrunning).step
  exact h.step .cancel hsame (ha.trans (h.awaited.trans hawaited.symm)) hrun (hsim _ hp)

theorem Client.Refined.cancelRun (h : s.Refined config callback) :
    s.cancelRun.Refined config callback := by
  unfold Client.cancelRun
  split
  · exact h
  · exact h
  · next hrun =>
    obtain ⟨l, hl⟩ := h.loop _ hrun
    exact hl.cancel (fun _ _ h => by cases h) ⟨rfl, rfl⟩ rfl rfl fun l hp => ⟨_, hp, rfl⟩
  · next hrun =>
    obtain ⟨l, hl⟩ := h.loop _ hrun
    exact hl.cancel (fun _ _ h => by cases h) ⟨rfl, rfl⟩ rfl rfl fun l hp => ⟨_, hp, rfl⟩
  · next hrun =>
    obtain ⟨l, hl⟩ := h.loop _ hrun
    exact hl.cancel (fun _ _ h => by cases h) ⟨rfl, rfl⟩ rfl rfl fun l => stopsNext_of_cancelled
  · next hrun =>
    obtain ⟨l, hl⟩ := h.loop _ hrun
    exact hl.cancel (fun _ _ h => by cases h) ⟨rfl, rfl⟩ rfl rfl fun l => stopsNext_of_cancelled
  · next hrun =>
    obtain ⟨l, hl⟩ := h.loop _ hrun
    exact hl.cancel (fun _ _ h => by cases h) ⟨rfl, rfl⟩ rfl rfl fun l => stopsNext_of_cancelled
  · next hrun =>
    obtain ⟨l, hl⟩ := h.loop _ hrun
    exact hl.cancel (fun _ _ h => by cases h) ⟨rfl, rfl⟩ rfl rfl fun l => stopsNext_of_cancelled
  · next r hrun =>
    obtain ⟨l, hl⟩ := h.loop _ hrun
    unfold Client.reconnected
    rcases Client.retryCancel_cases s.transports r with hr | ⟨t, hr⟩
    · rw [hr]
      exact hl.cancel (fun _ _ h => by cases h) ⟨rfl, rfl⟩ rfl rfl fun l hp => ⟨_, hp, rfl⟩
    · rw [hr]
      exact hl.cancel (fun _ _ h => by cases h) ⟨rfl, rfl⟩ rfl rfl fun l hp => hp

/-- The callback is awaited in both, or in neither. -/
theorem Refines.notify (h : Refines config callback s phase l) {e : LoopEvent} {reason : StopReason}
    {l' : RunLoop} (hstep : l.step e = l'.notifyConnectionRecoveryFailed reason)
    (hl' : l'.awaited = l.awaited ∧ l'.onConnectionRecoveryFailed = l.onConnectionRecoveryFailed)
    {awaiting afterwards : RunPhase} (hsame : SameLoop s s') (hawaited : s'.awaited = s.awaited)
    (hawaiting : ∀ l : RunLoop, l.phase = .notifying reason → Simulates awaiting l)
    (hafterwards : s.onConnectionRecoveryFailed = false →
      (s'.notifyConnectionRecoveryFailed awaiting afterwards).Refined config callback) :
    (s'.notifyConnectionRecoveryFailed awaiting afterwards).Refined config callback := by
  cases hc : s.onConnectionRecoveryFailed with
  | false => exact hafterwards hc
  | true =>
    have hcl : l'.onConnectionRecoveryFailed = true := (hl'.2.trans h.callback).trans hc
    have hcs : s'.onConnectionRecoveryFailed = true := hsame.callback.trans hc
    unfold Client.notifyConnectionRecoveryFailed
    rw [if_pos hcs]
    unfold RunLoop.notifyConnectionRecoveryFailed at hstep
    rw [if_pos hcl] at hstep
    refine h.step e ⟨hsame.reconnect, hsame.callback⟩ ?_ rfl ?_
    · rw [hstep]
      show l'.awaited + 1 = s'.awaited + 1
      rw [hl'.1, h.awaited, hawaited]
    · rw [hstep]
      exact hawaiting _ rfl

/-! ## Steps of the run task -/

/-- The `try` block ends; what is to be raised waits for the `finally` clause. -/
theorem Refines.servingEnds (h : Refines config callback s .serving l) (raises : Option ClientError) :
    (s.servingEnds raises).Refined config callback := by
  have hserving : l.phase = .serving := h.simulates
  have hstep : ∀ result, l.step (.serveEnds result) = l.serveEnds result := by
    intro result
    unfold RunLoop.step
    rw [hserving]
  have hlater : ∀ result e reason (s' : Client), SameLoop s s' → s'.awaited = s.awaited →
      s'.runTask = some (.reaping (.ends result)) → (l.step e).phase = .stopped reason →
      (l.step e).awaited = l.awaited → result.Stops reason → s'.Refined config callback := by
    intro result e reason s' hsame hawaited hrun hp ha hstops
    exact h.stutter hsame hawaited hrun
      ⟨cancellable_of_phase hserving fun _ h => (by cases h), e, reason, hp, ha, hstops⟩
  have hfailed : ∀ e, Client.Refined config callback
      { s with connectionInfo := none, runTask := some (.reaping (.ends (.failed e))) } :=
    fun e => hlater (.failed e) (.serveEnds .failed) .servingFailed _ ⟨rfl, rfl⟩ rfl rfl
      (by rw [hstep]; rfl) (by rw [hstep]; rfl) (Or.inr (Or.inl rfl))
  have hlost : ∀ e result, (e = .disconnected ∨ e = .timeout) → l.serveEnds result =
      (if l.config.enabled then { l with phase := .closing, losses := l.losses + 1 }
        else { l with losses := l.losses + 1 }.notifyConnectionRecoveryFailed .lost) →
      (if s.reconnect.enabled then
        { s.closeProtocol with connectionInfo := none, runTask := some .closing }
        else { s with connectionInfo := none }.notifyConnectionRecoveryFailed (.notifyingLost e)
          (.reaping (.ends (.failed e)))).Refined config callback := by
    intro e result he hends
    rw [h.config] at hends
    cases hen : s.reconnect.enabled with
    | true =>
      rw [hen, if_pos rfl] at hends
      rw [if_pos rfl]
      obtain ⟨hsame, hawaited⟩ := sameLoop_closeProtocol s
      refine h.step (.serveEnds result) ⟨hsame.reconnect, hsame.callback⟩ ?_ rfl ?_
      · rw [hstep, hends]
        exact h.awaited.trans hawaited.symm
      · rw [hstep, hends]
        rfl
    | false =>
      rw [hen, if_neg Bool.false_ne_true] at hends
      rw [if_neg Bool.false_ne_true]
      refine h.notify ((hstep result).trans hends)
        ⟨rfl, rfl⟩ ⟨rfl, rfl⟩ rfl (fun l hp => ⟨hp, he⟩) fun hc => ?_
      have hcl : l.onConnectionRecoveryFailed = false := h.callback.trans hc
      unfold RunLoop.notifyConnectionRecoveryFailed at hends
      rw [if_neg (by rw [hcl]; exact Bool.false_ne_true)] at hends
      unfold Client.notifyConnectionRecoveryFailed
      rw [if_neg (by show ¬ s.onConnectionRecoveryFailed = true; rw [hc]; exact Bool.false_ne_true)]
      exact hlater (.failed e) (.serveEnds result) .lost _ ⟨rfl, rfl⟩ rfl rfl
        (by rw [hstep, hends]) (by rw [hstep, hends]) (Or.inl ⟨rfl, he⟩)
  unfold Client.servingEnds
  rcases raises with _ | e
  · exact hlater .returned (.serveEnds .clean) .clean _ ⟨rfl, rfl⟩ rfl rfl
      (by rw [hstep]; rfl) (by rw [hstep]; rfl) rfl
  · cases e with
    | disconnected => exact hlost .disconnected .disconnected (Or.inl rfl) rfl
    | timeout => exact hlost .timeout .timeout (Or.inr rfl) rfl
    | osError => exact hfailed _
    | connectError code => exact hfailed _
    | protocolError => exact hfailed _
    | other => exact hfailed _

/-- An attempt of the reconnect fails: both sleep again, or both give up. -/
theorem Refines.attemptFails {r : Retry} (h : Refines config callback s (.reconnecting r) l)
    (hp : l.phase = .connecting r.attempt r.delay) (e : ClientError)
    (transports : List StreamTransport) :
    (s.reconnected (r.attemptFails s.reconnect e, transports)).Refined config callback := by
  have hstep : l.step (.attempted (some e.loopError)) =
      l.attempted r.attempt r.delay (some e.loopError) := by
    unfold RunLoop.step
    rw [hp]
  have hsilent : l.attempted r.attempt r.delay (some e.loopError) =
      { l with phase := .stopped (.reconnectFailed e.loopError) } →
      (({ s with transports } : Client).runEnds (.failed e)).Refined config callback := by
    intro hl
    refine h.step (.attempted (some e.loopError)) ⟨rfl, rfl⟩ ?_ rfl ?_
    · rw [hstep, hl]
      exact h.awaited
    · rw [hstep, hl]
      exact ⟨_, rfl, Or.inr (Or.inr (Or.inl rfl))⟩
  have hreported : l.attempted r.attempt r.delay (some e.loopError) =
      l.notifyConnectionRecoveryFailed (.reconnectFailed e.loopError) →
      (({ s with transports } : Client).notifyConnectionRecoveryFailed (.notifyingFailed e)
        (.ended (.failed e) false)).Refined config callback := by
    intro hl
    refine h.notify (hstep.trans hl) ⟨rfl, rfl⟩ ⟨rfl, rfl⟩ rfl
      (fun l hp => hp) fun hc => ?_
    have hcl : l.onConnectionRecoveryFailed = false := h.callback.trans hc
    unfold RunLoop.notifyConnectionRecoveryFailed at hl
    rw [if_neg (by rw [hcl]; exact Bool.false_ne_true)] at hl
    unfold Client.notifyConnectionRecoveryFailed
    rw [if_neg (by show ¬ s.onConnectionRecoveryFailed = true; rw [hc]; exact Bool.false_ne_true)]
    exact hsilent hl
  have hretry : ∀ hloop : (RunLoop.reconnectRaises l e.loopError =
        l.notifyConnectionRecoveryFailed (.reconnectFailed e.loopError)),
      l.attempted r.attempt r.delay (some e.loopError) =
        (if RunLoop.givesUp l.config (r.attempt + 1) then l.reconnectRaises e.loopError
          else { l with phase := .sleeping (r.attempt + 1) r.delay }) →
      (e = .osError ∨ e = .timeout) →
      (s.reconnected (if RunLoop.givesUp s.reconnect (r.attempt + 1) then .raised (some e)
        else .continues { r with attempt := r.attempt + 1, phase := .sleeping }, transports)).Refined
          config callback := by
    intro hloop hl he
    rw [h.config] at hl
    cases hg : RunLoop.givesUp s.reconnect (r.attempt + 1) with
    | true =>
      rw [hg, if_pos rfl, hloop] at hl
      rw [if_pos rfl]
      rcases he with rfl | rfl
      · exact hreported hl
      · exact hreported hl
    | false =>
      rw [hg, if_neg Bool.false_ne_true] at hl
      rw [if_neg Bool.false_ne_true]
      refine h.step (.attempted (some e.loopError)) ⟨rfl, rfl⟩ ?_ rfl ?_
      · rw [hstep, hl]
        exact h.awaited
      · rw [hstep, hl]
        rfl
  unfold Retry.attemptFails
  cases e with
  | osError => exact hretry rfl rfl (Or.inl rfl)
  | timeout => exact hretry rfl rfl (Or.inr rfl)
  | connectError code => exact hreported rfl
  | disconnected => exact hsilent rfl
  | protocolError => exact hsilent rfl
  | other => exact hsilent rfl

/-- An event of the handshake is one of the loop, or none. -/
theorem Refines.reconnects {r : Retry} (h : Refines config callback s (.reconnecting r) l) (e : RetryEvent) :
    (s.reconnected (r.step s.config s.reconnect s.transports e)).Refined config callback := by
  have hsim := h.simulates
  unfold Simulates at hsim
  dsimp only at hsim
  have hsame : ∀ (p : RetryPhase) (transports : List StreamTransport),
      Simulates (.reconnecting { r with phase := p }) l →
      (s.reconnected (.continues { r with phase := p }, transports)).Refined config callback :=
    fun p transports hs => h.stutter ⟨rfl, rfl⟩ rfl rfl hs
  unfold Retry.step
  split
  · next hp =>
    rw [hp] at hsim
    refine h.step .wakes ⟨rfl, rfl⟩ ?_ rfl ?_
    · unfold RunLoop.step
      rw [hsim]
      exact h.awaited
    · unfold RunLoop.step
      rw [hsim, h.config]
      rfl
  · next hp =>
    rw [hp] at hsim
    dsimp only
    split
    · exact hsame _ _ hsim
    · exact hsame _ _ hsim
  · next hp =>
    rw [hp] at hsim
    exact h.attemptFails hsim _ _
  · next hp =>
    rw [hp] at hsim
    exact hsame _ _ hsim
  · next hp =>
    rw [hp] at hsim
    exact hsame _ _ hsim
  · next hp =>
    rw [hp] at hsim
    split
    · exact hsame _ _ hsim
    · exact hsame _ _ hsim
    · refine h.step (.attempted none) ⟨rfl, rfl⟩ ?_ rfl ?_
      · unfold RunLoop.step
        rw [hsim]
        exact h.awaited
      · unfold RunLoop.step
        rw [hsim]
        rfl
  · next hp =>
    rw [hp] at hsim
    exact hsame _ _ hsim
  · next hp =>
    rw [hp] at hsim
    exact hsame _ _ hsim
  · next hp =>
    rw [hp] at hsim
    exact hsame _ _ hsim
  · next hp =>
    rw [hp] at hsim
    exact h.attemptFails hsim _ _
  · next hp =>
    rw [hp] at hsim
    exact h.stutter ⟨rfl, rfl⟩ rfl rfl ⟨_, hsim, rfl⟩
  · exact h.stutter ⟨rfl, rfl⟩ rfl rfl h.simulates

/-- The run task takes a step. -/
theorem Refines.stepRun (h : Refines config callback s phase l) (hrun : s.runTask = some phase) (hs : s.Sound)
    (e : LifeEvent) : (s.stepRun phase e).Refined config callback := by
  unfold Client.stepRun
  split
  · split
    · next hnone => exact absurd (Option.isNone_iff_eq_none.1 hnone) (hs.protocol_ne hrun)
    · exact h.stutter ⟨rfl, rfl⟩ rfl rfl h.simulates
  · exact h.servingEnds _
  · split
    · exact h.stutter ⟨rfl, rfl⟩ rfl hrun h.simulates
    · exact h.stutter ⟨rfl, rfl⟩ rfl hrun h.simulates
  · obtain ⟨hsame, hawaited⟩ := sameLoop_closeProtocol s
    exact h.stutter hsame hawaited ((Client.closeProtocol_frame s).2.2.trans hrun) h.simulates
  · exact h.stutter ⟨rfl, rfl⟩ rfl rfl h.simulates
  · next e ok =>
    obtain ⟨hp, he⟩ := h.simulates
    refine h.stutter ⟨rfl, rfl⟩ rfl rfl ⟨cancellable_of_phase hp fun _ h => (by cases h),
      .callbackEnds ok, if ok then .lost else .callbackFailed, ?_, ?_, ?_⟩
    · unfold RunLoop.step
      rw [hp]
    · unfold RunLoop.step
      rw [hp]
    · cases ok with
      | true => exact Or.inl ⟨rfl, he⟩
      | false => exact Or.inr (Or.inr (Or.inr ⟨rfl, rfl⟩))
  · have hp : l.phase = .closing := h.simulates
    refine h.step .closed ⟨rfl, rfl⟩ ?_ rfl ?_
    · unfold RunLoop.step
      rw [hp]
      exact h.awaited
    · unfold RunLoop.step
      rw [hp, h.config]
      rfl
  · obtain ⟨-, e, reason, hp, ha, hstops⟩ := h.simulates
    exact h.step e ⟨rfl, rfl⟩ (ha.trans h.awaited) rfl ⟨reason, hp, hstops⟩
  · next e ok =>
    have hp : l.phase = .notifying (.reconnectFailed e.loopError) := h.simulates
    refine h.step (.callbackEnds ok) ⟨rfl, rfl⟩ ?_ rfl
      ⟨if ok then .reconnectFailed e.loopError else .callbackFailed, ?_, ?_⟩
    · unfold RunLoop.step
      rw [hp]
      exact h.awaited
    · unfold RunLoop.step
      rw [hp]
    · cases ok with
      | true => exact Or.inr (Or.inr (Or.inl rfl))
      | false => exact Or.inr (Or.inr (Or.inr ⟨rfl, rfl⟩))
  · exact h.stutter ⟨rfl, rfl⟩ rfl rfl h.simulates
  · exact h.stutter ⟨rfl, rfl⟩ rfl hrun h.simulates

end Steps

/-! ## The client -/

namespace Client

variable {config : ReconnectConfig} {callback : Bool} {s s' : Client}

/-- The main task moves on. -/
theorem Refined.mainMoves (h : s.Refined config callback) (hsame : SameLoop s s')
    (hrun : s'.runTask = s.runTask) (hawaited : s'.awaited = s.awaited) :
    s'.Refined config callback := by
  have hconfigured := h.configured
  rw [← hsame.reconnect, ← hsame.callback] at hconfigured
  refine ⟨hconfigured, fun phase hphase => ?_⟩
  obtain ⟨l, hl⟩ := h.loop phase (hrun.symm.trans hphase)
  exact (hl.stutter hsame hawaited hphase hl.simulates).loop phase hphase

/-- Without a run task there is nothing to simulate. -/
theorem Refined.idle (h : s.Refined config callback) (hsame : SameLoop s s')
    (hrun : s'.runTask = none) : s'.Refined config callback := by
  have hconfigured := h.configured
  rw [← hsame.reconnect, ← hsame.callback] at hconfigured
  refine ⟨hconfigured, fun phase hphase => ?_⟩
  rw [hrun] at hphase
  cases hphase

theorem Refined.disconnect (h : s.Refined config callback) : s.disconnect.Refined config callback := by
  unfold Client.disconnect
  split
  · exact h.mainMoves ⟨rfl, rfl⟩ rfl rfl
  · exact h.mainMoves ⟨rfl, rfl⟩ rfl rfl

/-- `__aenter__` starts the loop. -/
theorem Refined.entered (h : s.Refined config callback) (hrun : s.runTask = none)
    (after : RetryResult × List StreamTransport) : (s.entered after).Refined config callback := by
  obtain ⟨result, transports⟩ := after
  cases result with
  | continues r => exact h.idle ⟨rfl, rfl⟩ hrun
  | connected t connack =>
    refine ⟨h.configured, fun phase hphase => ?_⟩
    obtain rfl := Option.some.inj hphase
    exact ⟨loopStart config callback, h.configured, .refl, h.configured.1.symm,
      h.configured.2.symm, rfl, rfl⟩
  | raised e => exact h.idle ⟨rfl, rfl⟩ hrun

theorem Refined.step (h : s.Refined config callback) (hs : Sound s) (e : LifeEvent) :
    (s.step e).Refined config callback := by
  unfold Client.step
  split
  · split
    · exact h.mainMoves ⟨rfl, rfl⟩ rfl rfl
    · exact h
  · exact h.mainMoves ⟨rfl, rfl⟩ rfl rfl
  · unfold stopRunTask
    split
    · exact h.disconnect
    · exact h.cancelRun.mainMoves ⟨rfl, rfl⟩ rfl rfl
  · split
    · split
      · exact h.mainMoves ⟨rfl, rfl⟩ rfl rfl
      · have hended : Refined config callback { s with runTask := none } := h.idle ⟨rfl, rfl⟩ rfl
        exact hended.disconnect
    · exact h
  · exact h.mainMoves ⟨rfl, rfl⟩ rfl rfl
  · exact h.mainMoves ⟨rfl, rfl⟩ rfl rfl
  · unfold interrupt
    split
    · exact h
    · next r hm => exact h.entered (hs.task (hs.entering r hm)) _
    · exact h.cancelRun.mainMoves ⟨rfl, rfl⟩ rfl rfl
    · exact h.mainMoves ⟨rfl, rfl⟩ rfl rfl
    · exact h.mainMoves ⟨rfl, rfl⟩ rfl rfl
    · exact h.mainMoves ⟨rfl, rfl⟩ rfl rfl
  · unfold stepRetry
    split
    · next r hm => exact h.entered (hs.task (hs.entering r hm)) _
    · next r hrun _ =>
      obtain ⟨l, hl⟩ := h.loop _ hrun
      exact hl.reconnects _
    · exact h
  · split
    · exact h
    · next phase hrun =>
      obtain ⟨l, hl⟩ := h.loop phase hrun
      exact hl.stepRun hrun hs _

theorem refined_of_reach {client : ClientConfig}
    (h : Reach step anyStep (new client config callback) s) : s.Refined config callback := by
  have hinv : s.Refined config callback ∧ Sound s := by
    refine Reach.invariant (I := fun s => s.Refined config callback ∧ Sound s) h
      ⟨⟨⟨rfl, rfl⟩, fun phase h => (by cases h)⟩, sound_new client config callback⟩ fun s e hs _ => ?_
    exact ⟨hs.1.step hs.2 e, hs.2.step e⟩
  exact hinv.1

/-- A loop reports at most once. -/
theorem awaited_le_one {l : RunLoop}
    (h : Reach RunLoop.step anyStep (loopStart config true) l) : l.awaited ≤ 1 := by
  have hreports : l.Reports :=
    Reach.invariant h ⟨rfl, rfl, fun _ => rfl, fun _ => rfl⟩ fun l e hl _ => hl.step e
  exact hreports.awaited.le_one

/-- **The run task refines the reconnect loop.** In every run of a client, with all its handshakes,
    transports and cancellations, there is a run of the loop alone that has called
    `on_connection_recovery_failed` as often and is where the run task is; so the callback is
    called at most once for a `connect`. -/
theorem run_task_refines_loop (client : ClientConfig) (config : ReconnectConfig) (callback : Bool)
    (s : Client) (h : Reach step anyStep (new client config callback) s) (phase : RunPhase)
    (hrun : s.runTask = some phase) :
    (∃ l, Reach RunLoop.step anyStep (loopStart config callback) l ∧ l.awaited = s.awaited ∧
      Simulates phase l) ∧ (callback = true → s.awaited ≤ 1) := by
  obtain ⟨l, hl⟩ := (refined_of_reach h).loop phase hrun
  refine ⟨⟨l, hl.reached, hl.awaited, hl.simulates⟩, fun hcallback => ?_⟩
  have hreached := hl.reached
  rw [hcallback] at hreached
  exact hl.awaited ▸ awaited_le_one hreached

theorem run_task_refines_loop_rejectedRun :
    (rejectedRun.foldl step (new {} {} true)).awaited = 1 ∧
    ∃ l, Reach RunLoop.step anyStep (loopStart {} true) l ∧
      l.awaited = (rejectedRun.foldl step (new {} {} true)).awaited ∧
      Simulates (.ended (.failed (.connectError 5)) true) l :=
  ⟨by decide +kernel, (run_task_refines_loop {} {} true _ (Reach.foldl (meets_anyStep rejectedRun)) _
    (by decide +kernel)).1⟩

end Client

end Zmqtt
