/-
  The schedule of `_connect_with_retry`: how long it sleeps and how often it tries. Its variables
  `attempt` and `delay` are those of the library's back-off after the sleeps so far
  (`Retry.Scheduled`), whichever task runs it.
-/
import Zmqtt.Client.Transports
import Zmqtt.Lib.Backoff

namespace Zmqtt

/-! ## The schedule -/

/-- How often `_connect_with_retry` has slept, not counting a sleep in progress; `first` is 1 when it
    waits before the first attempt, else 0. -/
def Retry.sleeps (first : Nat) (r : Retry) : Nat :=
  match r.phase with
  | .sleeping => r.attempt + first - 1
  | _ => r.attempt + first

/-- The attempt after `attempt` failures is allowed. -/
def Retry.Allowed (config : ReconnectConfig) (r : Retry) : Prop :=
  r.attempt = 0 ∨
    config.enabled = true ∧ ∀ max, config.maxAttempts = some max → (r.attempt : Int) < max

/-- The attempts are within the limit, and the delay has grown with each sleep. -/
structure Retry.Scheduled (config : ReconnectConfig) (first : Nat) (r : Retry) : Prop where
  attempts : r.Allowed config
  delay : r.delay =
    backoff config.initialDelay config.backoffFactor config.maxDelay (r.sleeps first)
  awake : r.phase = .sleeping → 0 < r.attempt + first

namespace Retry

variable {config : ReconnectConfig} {first : Nat} {r r' : Retry}

theorem scheduled_start (config : ReconnectConfig) : (start config).Scheduled config 0 :=
  ⟨Or.inl rfl, rfl, fun h => by cases h⟩

theorem scheduled_startWaiting (config : ReconnectConfig) :
    (startWaiting config).Scheduled config 1 :=
  ⟨Or.inl rfl, rfl, fun _ => Nat.zero_lt_one⟩

theorem sleeps_of_ne (hp : r.phase ≠ .sleeping) : r.sleeps first = r.attempt + first := by
  unfold sleeps
  split
  · next hsleeping => exact absurd hsleeping hp
  · rfl

/-- Another phase of the same attempt. -/
theorem Scheduled.attempting (h : r.Scheduled config first) (hp : r.phase ≠ .sleeping)
    {phase : RetryPhase} (hp' : phase ≠ .sleeping) : { r with phase }.Scheduled config first := by
  refine ⟨h.attempts, ?_, fun h => absurd h hp'⟩
  have hold := h.delay
  rw [sleeps_of_ne hp] at hold
  rw [sleeps_of_ne hp']
  exact hold

/-- A failed attempt is followed by a sleep, unless it was the last. -/
theorem Scheduled.attemptFails (h : r.Scheduled config first) (hp : r.phase ≠ .sleeping)
    {e : ClientError} (hr : r.attemptFails config e = .continues r') : r'.Scheduled config first := by
  have hretry : (if RunLoop.givesUp config (r.attempt + 1) then RetryResult.raised (some e)
      else .continues { r with attempt := r.attempt + 1, phase := .sleeping }) = .continues r' →
        r'.Scheduled config first := by
    intro hr
    split at hr
    · cases hr
    · next hgives =>
      cases hr
      unfold RunLoop.givesUp at hgives
      rw [Bool.or_eq_true, not_or, Bool.not_eq_true, Bool.not_eq_false'] at hgives
      refine ⟨Or.inr ⟨hgives.1, fun max hmax => ?_⟩, ?_, fun _ => by dsimp only; omega⟩
      · have hlimit := hgives.2
        rw [hmax] at hlimit
        simpa using hlimit
      · have hold := h.delay
        rw [sleeps_of_ne hp] at hold
        have hsleeps : r.attempt + 1 + first - 1 = r.attempt + first := by omega
        show r.delay = backoff _ _ _ (r.attempt + 1 + first - 1)
        rw [hsleeps]
        exact hold
  unfold Retry.attemptFails at hr
  cases e with
  | osError => exact hretry hr
  | timeout => exact hretry hr
  | connectError code => cases hr
  | disconnected => cases hr
  | protocolError => cases hr
  | other => cases hr

theorem Scheduled.step (h : r.Scheduled config first) {client : ClientConfig}
    {transports : List StreamTransport} {e : RetryEvent}
    (hr : (r.step client config transports e).1 = .continues r') : r'.Scheduled config first := by
  have hcloses : ∀ {t raises}, r.phase ≠ .sleeping →
      RetryResult.continues { r with phase := .closing t raises } = .continues r' →
        r'.Scheduled config first := by
    intro t raises hp hr
    cases hr
    exact h.attempting hp fun h => by cases h
  unfold Retry.step at hr
  split at hr
  · next hp =>
    cases hr
    refine ⟨h.attempts, ?_, fun h => by cases h⟩
    have hold := h.delay
    have hawake := h.awake hp
    unfold sleeps at hold ⊢
    rw [hp] at hold
    dsimp only at hold ⊢
    obtain ⟨n, hn⟩ : ∃ n, r.attempt + first = n + 1 := ⟨_, (Nat.succ_pred_eq_of_pos hawake).symm⟩
    rw [hn] at hold ⊢
    unfold RunLoop.nextDelay
    rw [hold]
    rfl
  · next hp =>
    have hne : r.phase ≠ .sleeping := hp ▸ fun h => by cases h
    dsimp only at hr
    split at hr
    · exact hcloses hne hr
    · cases hr
      exact h.attempting hne fun h => by cases h
  · next hp => exact h.attemptFails (hp ▸ fun h => by cases h) hr
  · next hp =>
    cases hr
    exact h.attempting (hp ▸ fun h => by cases h) fun h => by cases h
  · next hp => exact hcloses (hp ▸ fun h => by cases h) hr
  · next hp =>
    have hne : r.phase ≠ .sleeping := hp ▸ fun h => by cases h
    split at hr
    · exact hcloses hne hr
    · cases hr
      exact h.attempting hne fun h => by cases h
    · cases hr
  · next hp => exact hcloses (hp ▸ fun h => by cases h) hr
  · next hp => exact hcloses (hp ▸ fun h => by cases h) hr
  · next hp => exact hcloses (hp ▸ fun h => by cases h) hr
  · next hp => exact h.attemptFails (hp ▸ fun h => by cases h) hr
  · cases hr
  · cases hr
    exact h

theorem Scheduled.cancel (h : r.Scheduled config first) {transports : List StreamTransport}
    (hr : (r.cancel transports).1 = .continues r') : r'.Scheduled config first := by
  unfold Retry.cancel at hr
  split at hr
  · cases hr
  · cases hr
  · cases hr
  · next hp =>
    cases hr
    exact h.attempting (hp ▸ fun h => by cases h) fun h => by cases h
  · next hp =>
    cases hr
    exact h.attempting (hp ▸ fun h => by cases h) fun h => by cases h

end Retry

namespace Client

variable {config : ReconnectConfig} {s s' : Client}

/-- The `_connect_with_retry` in progress is on schedule. -/
structure Schedules (config : ReconnectConfig) (s : Client) : Prop where
  configured : s.reconnect = config
  entering : ∀ r, s.main = .entering r → r.Scheduled config 0
  reconnecting : ∀ r, s.runTask = some (.reconnecting r) → r.Scheduled config 1

theorem Schedules.moves (h : Schedules config s) (hconfig : s'.reconnect = s.reconnect)
    (hmain : ∀ r, s'.main = .entering r → s.main = .entering r)
    (hrun : ∀ r, s'.runTask = some (.reconnecting r) → s.runTask = some (.reconnecting r)) :
    Schedules config s' :=
  ⟨hconfig.trans h.configured, fun r hr => h.entering r (hmain r hr),
    fun r hr => h.reconnecting r (hrun r hr)⟩

/-- The run task moves to a phase that is not a reconnect. -/
theorem Schedules.runMoves (h : Schedules config s) (hconfig : s'.reconnect = s.reconnect)
    (hmain : s'.main = s.main) {phase : RunPhase} (hrun : s'.runTask = some phase)
    (hphase : ∀ r, phase ≠ .reconnecting r) : Schedules config s' := by
  refine h.moves hconfig (fun r hr => hmain ▸ hr) fun r hr => ?_
  rw [hrun] at hr
  exact absurd (Option.some.inj hr) (hphase r)

theorem Schedules.entered (h : Schedules config s) {after : RetryResult × List StreamTransport}
    (hafter : ∀ r, after.1 = .continues r → r.Scheduled config 0) :
    Schedules config (s.entered after) := by
  obtain ⟨result, transports⟩ := after
  cases result with
  | continues r' =>
    refine ⟨h.configured, fun r hr => ?_, h.reconnecting⟩
    obtain rfl := MainPhase.entering.inj hr
    exact hafter r' rfl
  | connected t connack =>
    exact ⟨h.configured, fun r hr => (by cases hr), fun r hr => (by cases hr)⟩
  | raised e => exact ⟨h.configured, fun r hr => (by cases hr), h.reconnecting⟩

theorem Schedules.notify (h : Schedules config s) {awaiting afterwards : RunPhase}
    (hawaiting : ∀ r, awaiting ≠ .reconnecting r) (hafterwards : ∀ r, afterwards ≠ .reconnecting r) :
    Schedules config (s.notifyConnectionRecoveryFailed awaiting afterwards) := by
  unfold notifyConnectionRecoveryFailed
  split
  · exact h.runMoves rfl rfl rfl hawaiting
  · exact h.runMoves rfl rfl rfl hafterwards

theorem Schedules.reconnected (h : Schedules config s) {after : RetryResult × List StreamTransport}
    (hafter : ∀ r, after.1 = .continues r → r.Scheduled config 1) :
    Schedules config (s.reconnected after) := by
  obtain ⟨result, transports⟩ := after
  have hnotify : ∀ e, Schedules config ({ s with transports }.notifyConnectionRecoveryFailed
      (.notifyingFailed e) (.ended (.failed e) false)) := by
    intro e
    have hs : Schedules config { s with transports } := ⟨h.configured, h.entering, h.reconnecting⟩
    exact hs.notify (fun r h => by cases h) fun r h => by cases h
  cases result with
  | continues r' =>
    refine ⟨h.configured, h.entering, fun r hr => ?_⟩
    obtain rfl := RunPhase.reconnecting.inj (Option.some.inj hr)
    exact hafter r' rfl
  | connected t connack => exact h.runMoves rfl rfl rfl fun r h => by cases h
  | raised e =>
    rcases e with _ | e
    · exact h.runMoves rfl rfl rfl fun r h => by cases h
    · cases e with
      | osError => exact hnotify _
      | timeout => exact hnotify _
      | connectError code => exact hnotify _
      | disconnected => exact h.runMoves rfl rfl rfl fun r h => by cases h
      | protocolError => exact h.runMoves rfl rfl rfl fun r h => by cases h
      | other => exact h.runMoves rfl rfl rfl fun r h => by cases h

theorem closeProtocol_reconnect (s : Client) : s.closeProtocol.reconnect = s.reconnect := by
  unfold closeProtocol
  split
  · rfl
  · rfl

theorem Schedules.servingEnds (h : Schedules config s) (raises : Option ClientError) :
    Schedules config (s.servingEnds raises) := by
  have hlost : ∀ e, Schedules config (if s.reconnect.enabled then
      { s.closeProtocol with connectionInfo := none, runTask := some .closing }
      else { s with connectionInfo := none }.notifyConnectionRecoveryFailed (.notifyingLost e)
        (.reaping (.ends (.failed e)))) := by
    intro e
    split
    · exact h.runMoves (closeProtocol_reconnect s) (closeProtocol_frame s).1 rfl fun r h => by cases h
    · have hs : Schedules config { s with connectionInfo := none } :=
        ⟨h.configured, h.entering, h.reconnecting⟩
      exact hs.notify (fun r h => by cases h) fun r h => by cases h
  rcases raises with _ | e
  · exact h.runMoves rfl rfl rfl fun r h => by cases h
  · cases e with
    | disconnected => exact hlost _
    | timeout => exact hlost _
    | osError => exact h.runMoves rfl rfl rfl fun r h => by cases h
    | connectError code => exact h.runMoves rfl rfl rfl fun r h => by cases h
    | protocolError => exact h.runMoves rfl rfl rfl fun r h => by cases h
    | other => exact h.runMoves rfl rfl rfl fun r h => by cases h

theorem Schedules.cancelRun (h : Schedules config s) : Schedules config s.cancelRun := by
  unfold Client.cancelRun
  split
  · exact h
  · exact h
  · exact h.runMoves rfl rfl rfl fun r h => by cases h
  · exact h.runMoves rfl rfl rfl fun r h => by cases h
  · exact h.runMoves rfl rfl rfl fun r h => by cases h
  · exact h.runMoves rfl rfl rfl fun r h => by cases h
  · exact h.runMoves rfl rfl rfl fun r h => by cases h
  · exact h.runMoves rfl rfl rfl fun r h => by cases h
  · next r hrun => exact h.reconnected fun r' hr => (h.reconnecting r hrun).cancel hr

theorem Schedules.stepRun (h : Schedules config s) (phase : RunPhase) (e : LifeEvent) :
    Schedules config (s.stepRun phase e) := by
  unfold Client.stepRun
  split
  · split
    · exact h.runMoves rfl rfl rfl fun r h => by cases h
    · exact h.runMoves rfl rfl rfl fun r h => by cases h
  · exact h.servingEnds _
  · split
    · exact h
    · exact h.moves rfl (fun _ h => h) fun _ h => h
  · obtain ⟨hm, -, hr⟩ := closeProtocol_frame s
    exact h.moves (closeProtocol_reconnect s) (fun _ h => hm ▸ h) fun _ h => hr ▸ h
  · exact h.runMoves rfl rfl rfl fun r h => by cases h
  · exact h.runMoves rfl rfl rfl fun r h => by cases h
  · refine ⟨h.configured, h.entering, fun r hr => ?_⟩
    obtain rfl := RunPhase.reconnecting.inj (Option.some.inj hr)
    rw [h.configured]
    exact Retry.scheduled_startWaiting config
  · exact h.runMoves rfl rfl rfl fun r h => by cases h
  · exact h.runMoves rfl rfl rfl fun r h => by cases h
  · exact h.runMoves rfl rfl rfl fun r h => by cases h
  · exact h

/-- The main task moves, and starts no `_connect_with_retry`. -/
theorem Schedules.mainMoves (h : Schedules config s) {info : Option ConnectionInfo} {main : MainPhase}
    {transports : List StreamTransport} {protocol : Option Nat} (hmain : ∀ r, main ≠ .entering r) :
    Schedules config { s with connectionInfo := info, main, transports, protocol } :=
  ⟨h.configured, fun r hr => absurd hr (hmain r), h.reconnecting⟩

theorem Schedules.disconnect (h : Schedules config s) : Schedules config s.disconnect := by
  unfold Client.disconnect
  split
  · exact h.mainMoves fun r h => by cases h
  · exact h.mainMoves fun r h => by cases h

theorem Schedules.step (h : Schedules config s) (e : LifeEvent) : Schedules config (s.step e) := by
  unfold Client.step
  split
  · split
    · refine ⟨h.configured, fun r hr => ?_, h.reconnecting⟩
      obtain rfl := MainPhase.entering.inj hr
      rw [h.configured]
      exact Retry.scheduled_start config
    · exact h
  · exact h.mainMoves fun r h => by cases h
  · unfold stopRunTask
    split
    · exact h.disconnect
    · exact h.cancelRun.mainMoves fun r h => by cases h
  · split
    · split
      · exact h.mainMoves fun r h => by cases h
      · exact Schedules.disconnect ⟨h.configured, h.entering, fun r hr => (by cases hr)⟩
    · exact h
  · exact h.mainMoves fun r h => by cases h
  · exact h.mainMoves fun r h => by cases h
  · unfold interrupt
    split
    · exact h
    · next r hm =>
      exact h.entered fun r' hr => (h.entering r hm).cancel hr
    · exact h.cancelRun.mainMoves fun r h => by cases h
    · exact h.mainMoves fun r h => by cases h
    · exact h.mainMoves fun r h => by cases h
    · exact h.mainMoves fun r h => by cases h
  · unfold stepRetry
    split
    · next r hm =>
      refine h.entered fun r' hr => ?_
      rw [h.configured] at hr
      exact (h.entering r hm).step hr
    · next r hrun _ =>
      refine h.reconnected fun r' hr => ?_
      rw [h.configured] at hr
      exact (h.reconnecting r hrun).step hr
    · exact h
  · split
    · exact h
    · exact h.stepRun _ _

/-- **The schedule of the reconnects.** In every run, with a factor of at least 1 and a first delay
    within the cap, a reconnect sleeps `min(initial_delay * backoff_factor ** n, max_delay)` seconds
    after its n-th failure, and `connect`, which does not sleep before its first attempt, one power
    less; neither makes an attempt beyond `max_attempts`, or a second one when reconnecting is
    disabled. -/
theorem reconnect_schedule (config : ClientConfig) (reconnect : ReconnectConfig) (callback : Bool)
    (hinitial : 0 ≤ reconnect.initialDelay) (hcap : reconnect.initialDelay ≤ reconnect.maxDelay)
    (hfactor : 1 ≤ reconnect.backoffFactor) (s : Client)
    (h : Reach step anyStep (new config reconnect callback) s) :
    (∀ r, s.main = .entering r → r.Allowed reconnect ∧
      (r.phase = .sleeping → 0 < r.attempt ∧ r.delay =
        min (reconnect.initialDelay * reconnect.backoffFactor ^ (r.attempt - 1)) reconnect.maxDelay)) ∧
    ∀ r, s.runTask = some (.reconnecting r) → r.Allowed reconnect ∧
      (r.phase = .sleeping → r.delay =
        min (reconnect.initialDelay * reconnect.backoffFactor ^ r.attempt) reconnect.maxDelay) := by
  have hsched : Schedules reconnect s := by
    refine Reach.invariant h ⟨rfl, fun r hr => (by cases hr), fun r hr => (by cases hr)⟩
      fun s e hs _ => hs.step e
  have hdelay : ∀ {first n : Nat} {r : Retry}, r.Scheduled reconnect first → r.phase = .sleeping →
      r.attempt + first - 1 = n → r.delay =
        min (reconnect.initialDelay * reconnect.backoffFactor ^ n) reconnect.maxDelay := by
    intro first n r hr hp hn
    rw [← backoff_eq hinitial hcap hfactor, hr.delay, ← hn]
    unfold Retry.sleeps
    rw [hp]
  refine ⟨fun r hr => ?_, fun r hr => ?_⟩
  · have hscheduled := hsched.entering r hr
    exact ⟨hscheduled.attempts, fun hp => ⟨hscheduled.awake hp, hdelay hscheduled hp rfl⟩⟩
  · have hscheduled := hsched.reconnecting r hr
    exact ⟨hscheduled.attempts, fun hp => hdelay hscheduled hp (Nat.add_sub_cancel r.attempt 1)⟩

/-- Three attempts of a reconnect fail. -/
def failingRun : List LifeEvent :=
  [.enter, .retry .opened, .retry .sent, .retry (.received [32, 2, 0, 0]), .runStarts,
    .served (some .disconnected), .lostClosed, .reaped, .retry .wakes, .retry (.openFails .osError),
    .retry .wakes, .retry (.openFails .osError), .retry .wakes, .retry (.openFails .timeout)]

theorem reconnect_schedule_failingRun :
    (failingRun.foldl step (new {} {} true)).runTask = some (.reconnecting ⟨3, 8, .sleeping⟩) ∧
    (8 : ℚ) = min (1 * 2 ^ 3) 60 := by
  have hrun : (failingRun.foldl step (new {} {} true)).runTask =
      some (.reconnecting ⟨3, 8, .sleeping⟩) := by decide +kernel
  have hreach : Reach step anyStep (new {} {} true) (failingRun.foldl step (new {} {} true)) :=
    Reach.foldl (meets_anyStep failingRun)
  exact ⟨hrun, ((reconnect_schedule {} {} true (by decide +kernel) (by decide +kernel)
    (by decide +kernel) (failingRun.foldl step (new {} {} true)) hreach).2 ⟨3, 8, .sleeping⟩ hrun).2 rfl⟩

end Client

end Zmqtt
