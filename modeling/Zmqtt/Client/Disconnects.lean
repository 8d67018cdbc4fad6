/-
  `disconnect` finishes. Once `cancel_pending()` has returned, `__aexit__` waits for the run task,
  for the write of DISCONNECT and for the `close` of the transport; the run task has been cancelled
  by then, and a cancelled run task only closes and reaps what it has (`RunPhase.stopping`).

  Every event that changes the client then brings `exitMeasure` down (`exit_decreases`), so there
  are at most five, and as long as `__aexit__` has not returned one of them is still to come.
-/
import Zmqtt.Client.Transports

namespace Zmqtt

/-- The phases of a run task that was cancelled. -/
def RunPhase.stopping : RunPhase → Bool
  | .reaping (.ends .cancelled) | .ended _ _ => true
  | .reconnecting r =>
      match r.phase with
      | .closing _ none => true
      | _ => false
  | _ => false

/-- How many events a cancelled run task still takes. -/
def RunPhase.remaining : RunPhase → Nat
  | .ended _ true => 0
  | .ended _ false => 1
  | _ => 2

namespace Client

/-! ## A cancelled run task -/

/-- The run task was cancelled. -/
def Stopping (s : Client) : Prop := ∃ phase, s.runTask = some phase ∧ phase.stopping = true

theorem runEnds_stopping (s : Client) (result : RunResult) : (s.runEnds result).Stopping :=
  ⟨_, rfl, rfl⟩

/-- Cancelling a handshake closes its transport and nothing else. -/
theorem retryCancel_cases (transports : List StreamTransport) (r : Retry) :
    (r.cancel transports).1 = .raised none ∨
      ∃ t, (r.cancel transports).1 = .continues { r with phase := .closing t none } := by
  unfold Retry.cancel
  split
  · exact Or.inl rfl
  · exact Or.inl rfl
  · exact Or.inl rfl
  · exact Or.inr ⟨_, rfl⟩
  · exact Or.inr ⟨_, rfl⟩

theorem cancelRun_stopping {s : Client} (hrun : s.runTask ≠ none) : s.cancelRun.Stopping := by
  unfold cancelRun
  split
  · next h => exact absurd h hrun
  · next h => exact ⟨_, h, rfl⟩
  · exact runEnds_stopping _ _
  · exact runEnds_stopping _ _
  · exact ⟨_, rfl, rfl⟩
  · exact ⟨_, rfl, rfl⟩
  · exact ⟨_, rfl, rfl⟩
  · exact ⟨_, rfl, rfl⟩
  · next r _ =>
    unfold reconnected
    rcases retryCancel_cases s.transports r with h | ⟨t, h⟩
    · rw [h]
      exact runEnds_stopping _ _
    · rw [h]
      exact ⟨_, rfl, rfl⟩

/-- A cancelled reconnect takes one event: the transport is closed. -/
theorem retryStep_of_stopping (config : ClientConfig) (reconnect : ReconnectConfig)
    (transports : List StreamTransport) {r : Retry} (h : (RunPhase.reconnecting r).stopping = true)
    (e : RetryEvent) :
    r.step config reconnect transports e = (.continues r, transports) ∨
      r.step config reconnect transports e = (.raised none, transports) := by
  obtain ⟨t, ht⟩ : ∃ t, r.phase = .closing t none := by
    unfold RunPhase.stopping at h
    dsimp only at h
    split at h
    · next t ht => exact ⟨t, ht⟩
    · cases h
  unfold Retry.step
  rw [ht]
  cases e with
  | closed => exact Or.inr rfl
  | _ => exact Or.inl rfl

/-- An event of a cancelled run task changes nothing, or brings it closer to its end. -/
theorem stepRun_of_stopping {s : Client} {phase : RunPhase} (hrun : s.runTask = some phase)
    (h : phase.stopping = true) (e : LifeEvent) :
    s.stepRun phase e = s ∨ ((s.stepRun phase e).main = s.main ∧
      (s.stepRun phase e).protocol = s.protocol ∧ ∃ phase',
        (s.stepRun phase e).runTask = some phase' ∧ phase'.stopping = true ∧
          phase'.remaining < phase.remaining) := by
  unfold stepRun
  split
  · cases h
  · cases h
  · cases h
  · cases h
  · cases h
  · cases h
  · cases h
  · next result =>
    cases result with
    | cancelled => exact Or.inr ⟨rfl, rfl, _, rfl, rfl, (by decide)⟩
    | returned => cases h
    | failed e => cases h
  · cases h
  · next result => exact Or.inr ⟨rfl, rfl, _, rfl, rfl, Nat.zero_lt_one⟩
  · exact Or.inl rfl

theorem servingEnds_main (s : Client) (raises : Option ClientError) :
    (s.servingEnds raises).main = s.main := by
  have hlost : ∀ awaiting afterwards, (if s.reconnect.enabled then
      { s.closeProtocol with connectionInfo := none, runTask := some .closing }
      else { s with connectionInfo := none }.notifyConnectionRecoveryFailed awaiting afterwards).main =
        s.main := by
    intro awaiting afterwards
    split
    · exact (closeProtocol_frame s).1
    · exact notifyConnectionRecoveryFailed_main _ _ _
  rcases raises with _ | e
  · rfl
  · cases e with
    | disconnected => exact hlost _ _
    | timeout => exact hlost _ _
    | osError => rfl
    | connectError code => rfl
    | protocolError => rfl
    | other => rfl

/-- The run task leaves the main task alone. -/
theorem stepRun_main (s : Client) (phase : RunPhase) (e : LifeEvent) :
    (s.stepRun phase e).main = s.main := by
  unfold stepRun
  split
  · split
    · rfl
    · rfl
  · exact servingEnds_main _ _
  · split
    · rfl
    · rfl
  · exact (closeProtocol_frame s).1
  · rfl
  · rfl
  · rfl
  · rfl
  · rfl
  · rfl
  · rfl

theorem entered_main (s : Client) (after : RetryResult × List StreamTransport) :
    (∃ r, (s.entered after).main = .entering r) ∨ (s.entered after).main = .resting := by
  unfold entered
  dsimp only
  split
  · exact Or.inl ⟨_, rfl⟩
  · exact Or.inr rfl
  · exact Or.inr rfl

theorem disconnect_main (s : Client) :
    s.disconnect.main = .resting ∨ ∃ t, s.disconnect.main = .disconnecting t := by
  unfold disconnect
  split
  · exact Or.inl rfl
  · exact Or.inr ⟨_, rfl⟩

/-- The run task that `__aexit__` waits for was cancelled. -/
def Joins (s : Client) : Prop := ∀ interrupted, s.main = .joining interrupted → s.Stopping

theorem joins_of_main {s : Client} (h : ∀ interrupted, s.main ≠ .joining interrupted) : s.Joins :=
  fun interrupted hm => absurd hm (h interrupted)

theorem joins_of_entered (s : Client) (after : RetryResult × List StreamTransport) :
    (s.entered after).Joins := by
  refine joins_of_main fun b hm => ?_
  rcases s.entered_main after with ⟨r, h⟩ | h
  · rw [h] at hm
    cases hm
  · rw [h] at hm
    cases hm

theorem joins_of_disconnect (s : Client) : s.disconnect.Joins := by
  refine joins_of_main fun b hm => ?_
  rcases s.disconnect_main with h | ⟨t, h⟩
  · rw [h] at hm
    cases hm
  · rw [h] at hm
    cases hm

theorem Joins.step {s : Client} (h : s.Joins) (e : LifeEvent) : (s.step e).Joins := by
  unfold Client.step
  split
  · split
    · exact joins_of_main fun b hm => by cases hm
    · exact h
  · exact joins_of_main fun b hm => by cases hm
  · unfold stopRunTask
    split
    · exact joins_of_disconnect s
    · next hrun =>
      refine fun b _ => ?_
      exact cancelRun_stopping (s := s) (by rw [hrun]; exact Option.some_ne_none _)
  · split
    · split
      · exact joins_of_main fun b hm => by cases hm
      · exact joins_of_disconnect _
    · exact h
  · exact joins_of_main fun b hm => by cases hm
  · exact joins_of_main fun b hm => by cases hm
  · unfold interrupt
    split
    · exact h
    · exact joins_of_entered _ _
    · next b hm =>
      obtain ⟨phase, hrun, -⟩ := h b hm
      refine fun b' _ => ?_
      exact cancelRun_stopping (s := s) (by rw [hrun]; exact Option.some_ne_none _)
    · exact joins_of_main fun b hm => by cases hm
    · exact joins_of_main fun b hm => by cases hm
    · exact joins_of_main fun b hm => by cases hm
  · unfold stepRetry
    split
    · exact joins_of_entered _ _
    · next r hrun _ =>
      intro b hm
      rw [reconnected_main] at hm
      obtain ⟨phase, hphase, hstop⟩ := h b hm
      obtain rfl : RunPhase.reconnecting r = phase := Option.some.inj (hrun.symm.trans hphase)
      unfold reconnected
      rcases retryStep_of_stopping s.config s.reconnect s.transports hstop _ with hstep | hstep
      · rw [hstep]
        exact ⟨_, rfl, hstop⟩
      · rw [hstep]
        exact runEnds_stopping _ _
    · exact h
  · split
    · exact h
    · next phase hrun =>
      intro b hm
      rw [stepRun_main] at hm
      obtain ⟨phase', hphase, hstop⟩ := h b hm
      obtain rfl : phase = phase' := Option.some.inj (hrun.symm.trans hphase)
      rcases stepRun_of_stopping hrun hstop _ with heq | ⟨-, -, phase', hrun', hstop', -⟩
      · rw [heq]
        exact ⟨phase, hrun, hstop⟩
      · exact ⟨phase', hrun', hstop'⟩

/-! ## `__aexit__` after `cancel_pending()` -/

/-- `__aexit__` has stopped the run task and was not cancelled since. -/
def exiting (s : Client) : Bool :=
  match s.main with
  | .joining false | .disconnecting _ | .closing _ => true
  | _ => false

/-- How many events `__aexit__` still takes. -/
def exitMeasure (s : Client) : Nat :=
  match s.main with
  | .joining _ => 3 + (s.runTask.map RunPhase.remaining).getD 0
  | .disconnecting _ => 2
  | .closing _ => 1
  | _ => 0

/-- `__aexit__` has returned. -/
def Finished (s : Client) : Prop := s.main = .resting ∧ s.protocol = none ∧ s.runTask = none

/-- An event brings `__aexit__` closer to its return. -/
def Closer (s s' : Client) : Prop :=
  s'.exitMeasure < s.exitMeasure ∧ (s'.exiting = true ∨ s'.Finished)

/-- Only the run task moved. -/
theorem closer_of_run {s s' : Client} {phase phase' : RunPhase} (hm : s.main = .joining false)
    (hrun : s.runTask = some phase) (hm' : s'.main = s.main) (hrun' : s'.runTask = some phase')
    (hlt : phase'.remaining < phase.remaining) : s.Closer s' := by
  rw [hm] at hm'
  refine ⟨?_, Or.inl ?_⟩
  · unfold exitMeasure
    rw [hm, hm', hrun, hrun']
    show 3 + phase'.remaining < 3 + phase.remaining
    omega
  · unfold exiting
    rw [hm']

theorem closer_of_disconnect {s : Client} (hm : s.main = .joining false) (hrun : s.runTask ≠ none) :
    s.Closer { s with runTask := none }.disconnect := by
  obtain ⟨phase, hphase⟩ := Option.ne_none_iff_exists'.1 hrun
  have hmeasure : 3 ≤ s.exitMeasure := by
    unfold exitMeasure
    rw [hm]
    exact Nat.le_add_right _ _
  unfold disconnect
  split
  · next hp => exact ⟨Nat.lt_of_lt_of_le (by decide : 0 < 3) hmeasure, Or.inr ⟨rfl, hp, rfl⟩⟩
  · exact ⟨Nat.lt_of_lt_of_le (by decide : 2 < 3) hmeasure, Or.inl rfl⟩

/-- While `__aexit__` waits for the run task. -/
theorem exit_decreases_joining {s : Client} (hs : s.Stopping) (hm : s.main = .joining false)
    {e : LifeEvent} (he : e ≠ .interrupt) : s.step e = s ∨ s.Closer (s.step e) := by
  obtain ⟨phase, hrun, hstop⟩ := hs
  have hother : s.stepRun phase e = s ∨ s.Closer (s.stepRun phase e) := by
    rcases stepRun_of_stopping hrun hstop e with heq | ⟨hm', -, phase', hrun', -, hlt⟩
    · exact Or.inl heq
    · exact Or.inr (closer_of_run hm hrun hm' hrun' hlt)
  unfold Client.step
  rw [hm]
  cases e with
  | interrupt => exact absurd rfl he
  | joined =>
    dsimp only
    split
    · refine Or.inr (closer_of_disconnect hm ?_)
      rw [hrun]
      exact Option.some_ne_none phase
    · exact Or.inl rfl
  | retry e =>
    dsimp only
    unfold stepRetry
    rw [hm]
    split
    · next h => cases h
    · next r hr _ =>
      obtain rfl : phase = .reconnecting r := Option.some.inj (hrun.symm.trans hr)
      unfold reconnected
      rcases retryStep_of_stopping s.config s.reconnect s.transports hstop e with hstep | hstep
      · rw [hstep]
        refine Or.inl ?_
        show { s with runTask := some (.reconnecting r) } = s
        rw [← hrun]
      · rw [hstep]
        exact Or.inr (closer_of_run hm hrun rfl rfl Nat.one_lt_two)
    · exact Or.inl rfl
  | _ =>
    rw [hrun]
    exact hother

/-- After the run task, while `__aexit__` disconnects the protocol. -/
theorem exit_decreases_leaving {s : Client} (hrun : s.runTask = none) {t : Nat}
    (hm : s.main = .disconnecting t ∨ s.main = .closing t) {e : LifeEvent} (he : e ≠ .interrupt) :
    s.step e = s ∨ s.Closer (s.step e) := by
  unfold Client.step
  rcases hm with hm | hm
  · rw [hm]
    cases e with
    | interrupt => exact absurd rfl he
    | disconnectSent =>
      refine Or.inr ⟨?_, Or.inl rfl⟩
      unfold exitMeasure
      rw [hm]
      exact Nat.one_lt_two
    | retry e =>
      dsimp only
      unfold stepRetry
      rw [hm, hrun]
      exact Or.inl rfl
    | _ =>
      rw [hrun]
      exact Or.inl rfl
  · rw [hm]
    cases e with
    | interrupt => exact absurd rfl he
    | disconnectClosed =>
      refine Or.inr ⟨?_, Or.inr ⟨rfl, rfl, hrun⟩⟩
      unfold exitMeasure
      rw [hm]
      exact Nat.zero_lt_one
    | retry e =>
      dsimp only
      unfold stepRetry
      rw [hm, hrun]
      exact Or.inl rfl
    | _ =>
      rw [hrun]
      exact Or.inl rfl

/-- Every event but a cancellation changes nothing, or brings `__aexit__` closer to its return. -/
theorem exit_decreases {s : Client} (h : Sound s) (hj : s.Joins) (hexit : s.exiting = true)
    {e : LifeEvent} (he : e ≠ .interrupt) : s.step e = s ∨ s.Closer (s.step e) := by
  unfold exiting at hexit
  split at hexit
  · next hm => exact exit_decreases_joining (hj _ hm) hm he
  · next t hm => exact exit_decreases_leaving (h.leaving t (Or.inl hm)).2 (Or.inl hm) he
  · next t hm => exact exit_decreases_leaving (h.leaving t (Or.inr hm)).2 (Or.inr hm) he
  · cases hexit

theorem exitMeasure_le (s : Client) : s.exitMeasure ≤ 5 := by
  have hremaining : ∀ phase : RunPhase, phase.remaining ≤ 2 := by
    intro phase
    unfold RunPhase.remaining
    split <;> omega
  unfold exitMeasure
  split
  · cases s.runTask with
    | none => exact (by decide : 3 ≤ 5)
    | some phase => exact Nat.add_le_add_left (hremaining phase) 3
  · decide
  · decide
  · decide

/-- What `__aexit__` waits for can still happen. -/
theorem exit_enabled {s : Client} (hj : s.Joins) (hexit : s.exiting = true) :
    ∃ e, e ≠ .interrupt ∧ s.step e ≠ s := by
  unfold exiting at hexit
  split at hexit
  · next hm =>
    obtain ⟨phase, hrun, hstop⟩ := hj _ hm
    have hmoves : ∀ e phase', e ≠ .interrupt → (s.step e).runTask = some phase' → phase' ≠ phase →
        ∃ e, e ≠ .interrupt ∧ s.step e ≠ s := by
      intro e phase' he hrun' hne
      refine ⟨e, he, fun h => hne ?_⟩
      rw [h, hrun] at hrun'
      exact (Option.some.inj hrun').symm
    cases phase with
    | starting => cases hstop
    | serving => cases hstop
    | closing => cases hstop
    | notifyingLost e => cases hstop
    | notifyingFailed e => cases hstop
    | reaping next =>
      refine hmoves .reaped (.ended .cancelled false) (fun h => by cases h) ?_ (fun h => by cases h)
      unfold RunPhase.stopping at hstop
      split at hstop
      · next hnext =>
        cases hnext
        unfold Client.step
        rw [hm, hrun]
        rfl
      · next hnext => cases hnext
      · next hnext => cases hnext
      · cases hstop
    | reconnecting r =>
      refine hmoves (.retry .closed) (.ended .cancelled false) (fun h => by cases h) ?_
        (fun h => by cases h)
      unfold RunPhase.stopping at hstop
      dsimp only at hstop
      split at hstop
      · next t hp =>
        unfold Client.step
        rw [hm]
        dsimp only
        unfold stepRetry
        rw [hm, hrun]
        dsimp only
        unfold Retry.step
        rw [hp]
        rfl
      · cases hstop
    | ended result notified =>
      cases notified with
      | false =>
        refine hmoves .runNotified (.ended result true) (fun h => by cases h) ?_ (fun h => by cases h)
        unfold Client.step
        rw [hm, hrun]
        rfl
      | true =>
        refine ⟨.joined, (fun h => by cases h), fun h => ?_⟩
        have hmain : (s.step .joined).main = .resting ∨ ∃ t, (s.step .joined).main = .disconnecting t := by
          unfold Client.step
          rw [hm, hrun]
          exact disconnect_main _
        rw [h, hm] at hmain
        rcases hmain with hmain | ⟨t, hmain⟩
        · cases hmain
        · cases hmain
  · next t hm =>
    refine ⟨.disconnectSent, (fun h => by cases h), fun h => ?_⟩
    have hmain : (s.step .disconnectSent).main = .closing t := by
      unfold Client.step
      rw [hm]
    rw [h, hm] at hmain
    cases hmain
  · next t hm =>
    refine ⟨.disconnectClosed, (fun h => by cases h), fun h => ?_⟩
    have hmain : (s.step .disconnectClosed).main = .resting := by
      unfold Client.step
      rw [hm]
    rw [h, hm] at hmain
    cases hmain
  · cases hexit

/-- An event of `__aexit__` that is not a cancellation and changes something. -/
def ExitEvent (s : Client) (e : LifeEvent) : Prop :=
  s.exiting = true ∧ e ≠ .interrupt ∧ s.step e ≠ s

theorem exit_length_le {s : Client} (h : Sound s) (hj : s.Joins) {es : List LifeEvent}
    (hes : Meets step ExitEvent s es) : es.length ≤ s.exitMeasure := by
  induction es generalizing s with
  | nil => exact Nat.zero_le _
  | cons e es ih =>
    obtain ⟨⟨hexit, he, hne⟩, hes⟩ := hes
    obtain ⟨hlt, -⟩ := (exit_decreases h hj hexit he).resolve_left hne
    have hle := ih (h.step e) (hj.step e) hes
    rw [List.length_cons]
    omega

/-- **`disconnect` finishes.** After `cancel_pending()`, in whatever state the run task was, `__aexit__`
    goes through at most five more events unless it is cancelled, never waits for what cannot happen,
    and leaves neither a run task nor a protocol nor an open transport. -/
theorem disconnect_finishes (config : ClientConfig) (reconnect : ReconnectConfig) (callback : Bool)
    (s : Client) (h : Reach step anyStep (new config reconnect callback) s)
    (hexit : s.exiting = true) :
    (∀ es, Meets step ExitEvent s es → es.length ≤ 5) ∧
    (∃ e, e ≠ .interrupt ∧ s.step e ≠ s) ∧
    ∀ e, e ≠ .interrupt → (s.step e).exiting = true ∨ (s.step e).Finished ∧
      ∀ t ∈ (s.step e).transports, t.writerClosed = true := by
  have hs : Sound s := Reach.invariant h (sound_new config reconnect callback) fun s e hs _ => hs.step e
  have hj : s.Joins :=
    Reach.invariant h (joins_of_main fun b hm => by cases hm) fun s e hj _ => hj.step e
  refine ⟨fun es hes => (exit_length_le hs hj hes).trans s.exitMeasure_le, exit_enabled hj hexit,
    fun e he => ?_⟩
  rcases exit_decreases hs hj hexit he with heq | ⟨-, hexit' | hfin⟩
  · rw [heq]
    exact Or.inl hexit
  · exact Or.inl hexit'
  · exact Or.inr ⟨hfin, (hs.step e).all_closed hfin.1 hfin.2.1⟩

/-- The client disconnects while it waits for the CONNACK of a reconnect. -/
def abandonedRun : List LifeEvent :=
  [.enter, .retry .opened, .retry .sent, .retry (.received [32, 2, 0, 0]), .runStarts,
    .served (some .disconnected), .lostClosed, .reaped, .retry .wakes, .retry .opened, .retry .sent,
    .exit, .pendingCancelled]

theorem disconnect_finishes_abandonedRun :
    (abandonedRun.foldl step (new {} {} true)).exiting = true ∧
    ∃ e, e ≠ .interrupt ∧
      (abandonedRun.foldl step (new {} {} true)).step e ≠ abandonedRun.foldl step (new {} {} true) :=
  ⟨by decide +kernel, (disconnect_finishes {} {} true _ (Reach.foldl (meets_anyStep abandonedRun))
    (by decide +kernel)).2.1⟩

end Client

end Zmqtt
