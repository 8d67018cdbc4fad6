/-
  The client closes every transport that it opens.

  A transport that is not closed is held: by the handshake in progress, or by the protocol while
  its connection is not lost (`Client.Holds`). The step of `_connect_with_retry` keeps what it holds
  in its own state until it hands the transport over or has closed it (`Accounted.retryStep`); the
  run loop closes the transport of the lost protocol before it opens another.
-/
import Zmqtt.Client.Lifecycle

namespace Zmqtt

/-! ## Lists of transports -/

/-- The open transports are those that `Held` allows, and the writer of a closed one was closed
    once. -/
def Accounted (transports : List StreamTransport) (Held : Nat → Prop) : Prop :=
  ∀ i t, transports[i]? = some t →
    t.closeCalls = (if t.writerClosed then 1 else 0) ∧ (t.writerClosed = false → Held i)

namespace Accounted

variable {transports : List StreamTransport} {Held : Nat → Prop}

theorem mono {Held' : Nat → Prop} (h : Accounted transports Held) (hheld : ∀ i, Held i → Held' i) :
    Accounted transports Held' :=
  fun i t ht => ⟨(h i t ht).1, fun ho => hheld i ((h i t ht).2 ho)⟩

theorem close (h : Accounted transports Held) (n : Nat) :
    Accounted (transports.modify n StreamTransport.close) fun i => Held i ∧ i ≠ n := by
  intro i t ht
  rw [List.getElem?_modify] at ht
  obtain ⟨u, hu, rfl⟩ := Option.map_eq_some_iff.1 ht
  obtain ⟨hcalls, hheld⟩ := h i u hu
  by_cases hn : n = i
  · rw [if_pos hn]
    unfold StreamTransport.close
    split
    · next hclosed =>
      rw [hclosed] at hcalls
      exact ⟨by rw [hclosed]; exact hcalls, fun ho => by rw [hclosed] at ho; cases ho⟩
    · next hopen =>
      rw [if_neg hopen] at hcalls
      exact ⟨by rw [hcalls]; rfl, fun ho => by cases ho⟩
  · rw [if_neg hn]
    exact ⟨hcalls, fun ho => ⟨hheld ho, fun hi => hn hi.symm⟩⟩

theorem readEof (h : Accounted transports Held) (n : Nat) :
    Accounted (transports.modify n StreamTransport.readEof) Held := by
  intro i t ht
  rw [List.getElem?_modify] at ht
  obtain ⟨u, hu, rfl⟩ := Option.map_eq_some_iff.1 ht
  split
  · exact h i u hu
  · exact h i u hu

theorem opened (h : Accounted transports Held) :
    Accounted (transports ++ [({} : StreamTransport)]) fun i => Held i ∨ i = transports.length := by
  intro i t ht
  rcases Nat.lt_or_ge i transports.length with hlt | hge
  · rw [List.getElem?_append_left hlt] at ht
    exact ⟨(h i t ht).1, fun ho => Or.inl ((h i t ht).2 ho)⟩
  · rw [List.getElem?_append_right hge] at ht
    obtain ⟨rfl, hi⟩ : t = ({} : StreamTransport) ∧ i - transports.length = 0 := by
      cases hd : i - transports.length with
      | zero => rw [hd] at ht; exact ⟨(Option.some.inj ht).symm, rfl⟩
      | succ k => rw [hd] at ht; cases ht
    exact ⟨rfl, fun _ => Or.inr (by omega)⟩

end Accounted

/-! ## The handshake -/

/-- The open transport of `_connect_with_retry`. -/
def Retry.held (r : Retry) : Option Nat :=
  match r.phase with
  | .sending t | .handshaking t _ => some t
  | .sleeping | .opening | .closing _ _ => none

/-- The open transport that `_connect_with_retry` keeps or hands over. -/
def RetryResult.held : RetryResult → Option Nat
  | .continues r => r.held
  | .connected t _ => some t
  | .raised _ => none

theorem Accounted.handshakeFails {transports : List StreamTransport} {r : Retry} {t : Nat}
    (h : Accounted transports fun i => i = t) (e : Option ClientError) :
    Accounted (r.handshakeFails t e transports).2 fun i =>
      (r.handshakeFails t e transports).1.held = some i :=
  (h.close t).mono fun _ hi => absurd hi.1 hi.2

theorem Retry.held_attemptFails (config : ReconnectConfig) (r : Retry) (e : ClientError) :
    (r.attemptFails config e).held = none := by
  unfold attemptFails
  cases e with
  | osError | timeout =>
    dsimp only
    split
    · rfl
    · rfl
  | connectError code => rfl
  | disconnected => rfl
  | protocolError => rfl
  | other => rfl

section Held

variable {transports : List StreamTransport} {r : Retry}

/-- An attempt with an open transport. -/
theorem Accounted.heldAt (h : Accounted transports fun i => r.held = some i) {t : Nat}
    (ht : r.held = some t) : Accounted transports fun i => i = t := by
  refine h.mono fun i hi => ?_
  rw [ht] at hi
  exact (Option.some.inj hi).symm

/-- An attempt without an open transport. -/
theorem Accounted.heldNone (h : Accounted transports fun i => r.held = some i) (hn : r.held = none) :
    Accounted transports fun _ => False := by
  refine h.mono fun i hi => ?_
  rw [hn] at hi
  cases hi

/-- What `_connect_with_retry` leaves open, it holds. -/
theorem Accounted.retryStep (h : Accounted transports fun i => r.held = some i)
    (config : ClientConfig) (reconnect : ReconnectConfig) (e : RetryEvent) :
    Accounted (r.step config reconnect transports e).2 fun i =>
      (r.step config reconnect transports e).1.held = some i := by
  unfold Retry.step
  split
  · next hp => exact (h.heldNone (by rw [Retry.held, hp])).mono fun _ hi => hi.elim
  · next hp =>
    have hopened : Accounted (transports ++ [({} : StreamTransport)]) fun i => i = transports.length :=
      (h.heldNone (by rw [Retry.held, hp])).opened.mono fun i hi => hi.resolve_left id
    dsimp only
    split
    · exact hopened.handshakeFails _
    · exact hopened.mono fun i hi => congrArg some hi.symm
  · next hp => exact (h.heldNone (by rw [Retry.held, hp])).mono fun _ hi => hi.elim
  · next t hp =>
    exact (h.heldAt (t := t) (by rw [Retry.held, hp])).mono fun i hi => congrArg some hi.symm
  · next hp => exact (h.heldAt (by rw [Retry.held, hp])).handshakeFails _
  · next t buf data hp =>
    have hheld := h.heldAt (t := t) (by rw [Retry.held, hp])
    split
    · exact hheld.handshakeFails _
    · exact hheld.mono fun i hi => congrArg some hi.symm
    · exact hheld.mono fun i hi => congrArg some hi.symm
  · next hp => exact ((h.heldAt (by rw [Retry.held, hp])).readEof _).handshakeFails _
  · next hp => exact (h.heldAt (by rw [Retry.held, hp])).handshakeFails _
  · next hp => exact (h.heldAt (by rw [Retry.held, hp])).handshakeFails _
  · next hp => exact (h.heldNone (by rw [Retry.held, hp])).mono fun _ hi => hi.elim
  · next hp => exact (h.heldNone (by rw [Retry.held, hp])).mono fun _ hi => hi.elim
  · exact h

/-- A cancelled handshake closes its transport. -/
theorem Accounted.retryCancel (h : Accounted transports fun i => r.held = some i) :
    Accounted (r.cancel transports).2 fun i => (r.cancel transports).1.held = some i := by
  unfold Retry.cancel
  split
  · next hp => exact (h.heldNone (by rw [Retry.held, hp])).mono fun _ hi => hi.elim
  · next hp => exact (h.heldNone (by rw [Retry.held, hp])).mono fun _ hi => hi.elim
  · next hp => exact (h.heldNone (by rw [Retry.held, hp])).mono fun _ hi => hi.elim
  · next hp => exact (h.heldAt (by rw [Retry.held, hp])).handshakeFails _
  · next hp => exact (h.heldAt (by rw [Retry.held, hp])).handshakeFails _

end Held

/-! ## The client -/

/-- The open transport of a reconnect. -/
def RunPhase.held : RunPhase → Option Nat
  | .reconnecting r => r.held
  | .starting | .serving | .closing | .notifyingLost _ | .reaping _ | .notifyingFailed _
  | .ended _ _ => none

/-- The phases of the run task in which the connection of `_protocol` is lost and closed. -/
def RunPhase.lost : RunPhase → Bool
  | .closing | .reaping .reconnects | .reconnecting _ | .notifyingFailed _ => true
  | .starting | .serving | .notifyingLost _ | .reaping (.ends _) | .ended _ _ => false

/-- The transports that may be open while the run task is in a phase. -/
def RunPhase.Holds (phase : RunPhase) (protocol : Option Nat) (i : Nat) : Prop :=
  phase.held = some i ∨ protocol = some i ∧ phase.lost = false

/-- The phases of the main task in which the run task goes on. -/
def MainPhase.letsRun : MainPhase → Bool
  | .resting | .cancellingPending | .joining _ => true
  | .entering _ | .disconnecting _ | .closing _ => false

namespace Client

/-- The transports that the client may have open. -/
def Holds (s : Client) (i : Nat) : Prop :=
  match s.main with
  | .entering r => r.held = some i
  | .closing _ => False
  | .resting | .cancellingPending | .joining _ | .disconnecting _ =>
      match s.runTask with
      | some phase => phase.Holds s.protocol i
      | none => s.protocol = some i

/-- The two tasks and the transports agree. -/
structure Sound (s : Client) : Prop where
  entering : ∀ r, s.main = .entering r → s.protocol = none
  task : s.protocol = none → s.runTask = none
  leaving : ∀ t, s.main = .disconnecting t ∨ s.main = .closing t →
    s.protocol = some t ∧ s.runTask = none
  accounted : Accounted s.transports s.Holds

theorem Sound.letsRun {s : Client} (h : Sound s) {phase : RunPhase} (hrun : s.runTask = some phase) :
    s.main.letsRun = true := by
  have hne : s.runTask ≠ none := by
    rw [hrun]
    exact Option.some_ne_none phase
  cases hm : s.main with
  | resting => rfl
  | cancellingPending => rfl
  | joining interrupted => rfl
  | entering r => exact absurd (h.task (h.entering r hm)) hne
  | disconnecting t => exact absurd (h.leaving t (Or.inl hm)).2 hne
  | closing t => exact absurd (h.leaving t (Or.inr hm)).2 hne

theorem Sound.protocol_ne {s : Client} (h : Sound s) {phase : RunPhase}
    (hrun : s.runTask = some phase) : s.protocol ≠ none := by
  intro hnone
  rw [h.task hnone] at hrun
  cases hrun

theorem holds_of_letsRun {s : Client} (hmain : s.main.letsRun = true) (i : Nat) :
    s.Holds i = match s.runTask with
      | some phase => phase.Holds s.protocol i
      | none => s.protocol = some i := by
  unfold Holds
  cases hm : s.main with
  | resting => rfl
  | cancellingPending => rfl
  | joining interrupted => rfl
  | entering r => rw [hm] at hmain; cases hmain
  | disconnecting t => rfl
  | closing t => rw [hm] at hmain; cases hmain

/-- With a run task, what is open is up to its phase. -/
theorem Sound.run {s : Client} (h : Sound s) {phase : RunPhase} (hrun : s.runTask = some phase) :
    Accounted s.transports (phase.Holds s.protocol) := by
  refine h.accounted.mono fun i hi => ?_
  rwa [holds_of_letsRun (h.letsRun hrun), hrun] at hi

theorem Sound.ofLetsRun {s : Client} (hmain : s.main.letsRun = true)
    (htask : s.protocol = none → s.runTask = none) (hacc : Accounted s.transports s.Holds) :
    Sound s := by
  refine ⟨fun r hm => ?_, htask, fun t hm => ?_, hacc⟩
  · rw [hm] at hmain
    cases hmain
  · rcases hm with hm | hm
    · rw [hm] at hmain
      cases hmain
    · rw [hm] at hmain
      cases hmain

theorem Sound.ofRun {s : Client} {phase : RunPhase} (hrun : s.runTask = some phase)
    (hmain : s.main.letsRun = true) (hprot : s.protocol ≠ none)
    (hacc : Accounted s.transports (phase.Holds s.protocol)) : Sound s := by
  refine .ofLetsRun hmain (fun hnone => absurd hnone hprot) (hacc.mono fun i hi => ?_)
  rwa [holds_of_letsRun hmain, hrun]

theorem Sound.ofIdle {s : Client} (hrun : s.runTask = none) (hmain : s.main.letsRun = true)
    (hacc : Accounted s.transports fun i => s.protocol = some i) : Sound s := by
  refine .ofLetsRun hmain (fun _ => hrun) (hacc.mono fun i hi => ?_)
  rwa [holds_of_letsRun hmain, hrun]

/-! ## Steps -/

/-- `__aenter__` goes on, fails, or starts the run task. -/
theorem Sound.entered {s : Client} (h : Sound s) {r : Retry} (hmain : s.main = .entering r)
    {after : RetryResult × List StreamTransport}
    (hacc : Accounted after.2 fun i => after.1.held = some i) : Sound (s.entered after) := by
  have hprot := h.entering r hmain
  have hrun := h.task hprot
  obtain ⟨result, transports⟩ := after
  cases result with
  | continues r' =>
    refine ⟨fun _ _ => hprot, fun _ => hrun, fun t hm => ?_, hacc⟩
    rcases hm with hm | hm
    · cases hm
    · cases hm
  | connected t connack =>
    exact .ofRun rfl rfl (Option.some_ne_none t) (hacc.mono fun i hi => Or.inr ⟨hi, rfl⟩)
  | raised e =>
    exact .ofIdle hrun rfl (hacc.mono fun i hi => (by cases hi))

/-- `_run_loop` goes on with the reconnect, ends, or serves the new connection. -/
theorem Sound.reconnected {s : Client} (h : Sound s) {r : Retry}
    (hrun : s.runTask = some (.reconnecting r)) {after : RetryResult × List StreamTransport}
    (hacc : Accounted after.2 fun i => after.1.held = some i) : Sound (s.reconnected after) := by
  have hmain := h.letsRun hrun
  have hprot := h.protocol_ne hrun
  have hends : ∀ {phase : RunPhase} {P : Nat → Prop}, Accounted after.2 P → (∀ i, ¬ P i) →
      Accounted after.2 (phase.Holds s.protocol) :=
    fun h hno => h.mono fun i hi => absurd hi (hno i)
  obtain ⟨result, transports⟩ := after
  cases result with
  | continues r' => exact .ofRun rfl hmain hprot (hacc.mono fun i hi => Or.inl hi)
  | connected t connack =>
    exact .ofRun rfl hmain (Option.some_ne_none t) (hacc.mono fun i hi => Or.inr ⟨hi, rfl⟩)
  | raised e =>
    have hno : ∀ i, ¬ (RetryResult.raised e).held = some i := fun i hi => by cases hi
    have hnotify : ∀ awaiting afterwards, Sound ({ s with transports }.notifyConnectionRecoveryFailed
        awaiting afterwards) := by
      intro awaiting afterwards
      unfold notifyConnectionRecoveryFailed
      split
      · exact .ofRun rfl hmain hprot (hends hacc hno)
      · exact .ofRun rfl hmain hprot (hends hacc hno)
    have hfails : ∀ result, Sound ({ s with transports }.runEnds result) :=
      fun result => .ofRun rfl hmain hprot (hends hacc hno)
    rcases e with _ | e
    · exact hfails _
    · cases e with
      | osError => exact hnotify _ _
      | timeout => exact hnotify _ _
      | connectError code => exact hnotify _ _
      | disconnected => exact hfails _
      | protocolError => exact hfails _
      | other => exact hfails _

/-- The run task leaves the transports, and may hold what it held. -/
theorem Sound.moves {s s' : Client} (h : Sound s) {phase phase' : RunPhase}
    (hrun : s.runTask = some phase) (hrun' : s'.runTask = some phase') (hmain : s'.main.letsRun = true)
    (hprot : s'.protocol = s.protocol) (htransports : s'.transports = s.transports)
    (hheld : phase.held = none) (hlost : phase'.lost = true → phase.lost = true) : Sound s' := by
  refine .ofRun hrun' hmain (hprot ▸ h.protocol_ne hrun) ?_
  rw [hprot, htransports]
  refine (h.run hrun).mono fun i hi => ?_
  rcases hi with hi | ⟨hi, hl⟩
  · rw [hheld] at hi
    cases hi
  · refine Or.inr ⟨hi, Bool.eq_false_of_not_eq_true fun ht => ?_⟩
    rw [hlost ht] at hl
    cases hl

/-- The transport of `_protocol` is closed. -/
theorem Sound.accounted_closeProtocol {s : Client} (h : Sound s) {phase : RunPhase}
    (hrun : s.runTask = some phase) (hheld : phase.held = none) :
    Accounted s.closeProtocol.transports fun _ => False := by
  unfold closeProtocol
  cases hp : s.protocol with
  | none =>
    rw [h.task hp] at hrun
    cases hrun
  | some t =>
    refine ((h.run hrun).close t).mono fun i hi => ?_
    obtain ⟨hi, hne⟩ := hi
    rcases hi with hi | ⟨hi, -⟩
    · rw [hheld] at hi
      cases hi
    · rw [hp] at hi
      exact hne (Option.some.inj hi).symm

theorem closeProtocol_frame (s : Client) : s.closeProtocol.main = s.main ∧
    s.closeProtocol.protocol = s.protocol ∧ s.closeProtocol.runTask = s.runTask := by
  unfold closeProtocol
  split
  · exact ⟨rfl, rfl, rfl⟩
  · exact ⟨rfl, rfl, rfl⟩

/-- The lost connection is closed before the loop goes on to reconnect. -/
theorem Sound.servingEnds {s : Client} (h : Sound s) (hrun : s.runTask = some .serving)
    (raises : Option ClientError) : Sound (s.servingEnds raises) := by
  have hmain := h.letsRun hrun
  have hlost : ∀ e, Sound (if s.reconnect.enabled then
      { s.closeProtocol with connectionInfo := none, runTask := some .closing }
      else { s with connectionInfo := none }.notifyConnectionRecoveryFailed (.notifyingLost e)
        (.reaping (.ends (.failed e)))) := by
    intro e
    split
    · obtain ⟨hm, hp, -⟩ := closeProtocol_frame s
      refine .ofRun rfl (hm.symm ▸ hmain) (hp.symm ▸ h.protocol_ne hrun) ?_
      exact (h.accounted_closeProtocol hrun rfl).mono fun i hi => hi.elim
    · unfold notifyConnectionRecoveryFailed
      split
      · exact h.moves hrun rfl hmain rfl rfl rfl fun hl => hl
      · exact h.moves hrun rfl hmain rfl rfl rfl fun hl => hl
  rcases raises with _ | e
  · exact h.moves hrun rfl hmain rfl rfl rfl fun hl => hl
  · cases e with
    | disconnected => exact hlost .disconnected
    | timeout => exact hlost .timeout
    | osError => exact h.moves hrun rfl hmain rfl rfl rfl fun hl => hl
    | connectError code => exact h.moves hrun rfl hmain rfl rfl rfl fun hl => hl
    | protocolError => exact h.moves hrun rfl hmain rfl rfl rfl fun hl => hl
    | other => exact h.moves hrun rfl hmain rfl rfl rfl fun hl => hl

theorem Sound.cancelRun {s : Client} (h : Sound s) : Sound s.cancelRun := by
  unfold Client.cancelRun
  split
  · exact h
  · exact h
  · next hrun => exact h.moves hrun rfl (h.letsRun hrun) rfl rfl rfl fun hl => by cases hl
  · next hrun => exact h.moves hrun rfl (h.letsRun hrun) rfl rfl rfl fun hl => by cases hl
  · next hrun => exact h.moves hrun rfl (h.letsRun hrun) rfl rfl rfl fun hl => by cases hl
  · next hrun => exact h.moves hrun rfl (h.letsRun hrun) rfl rfl rfl fun hl => by cases hl
  · next hrun => exact h.moves hrun rfl (h.letsRun hrun) rfl rfl rfl fun hl => by cases hl
  · next hrun => exact h.moves hrun rfl (h.letsRun hrun) rfl rfl rfl fun hl => by cases hl
  · next r hrun =>
    refine h.reconnected hrun (Accounted.retryCancel ((h.run hrun).mono fun i hi => ?_))
    exact hi.resolve_right fun hi => Bool.false_ne_true hi.2.symm

/-- A step of the run task. -/
theorem Sound.stepRun {s : Client} (h : Sound s) {phase : RunPhase} (hrun : s.runTask = some phase)
    (e : LifeEvent) : Sound (s.stepRun phase e) := by
  have hmain := h.letsRun hrun
  unfold Client.stepRun
  split
  · split
    · exact h.moves hrun rfl hmain rfl rfl rfl fun hl => by cases hl
    · exact h.moves hrun rfl hmain rfl rfl rfl fun hl => by cases hl
  · exact h.servingEnds hrun _
  · split
    · exact h
    · exact .ofRun hrun hmain (h.protocol_ne hrun) ((h.run hrun).readEof _)
  · obtain ⟨hm, hp, hr⟩ := closeProtocol_frame s
    refine .ofRun (hr.trans hrun) (hm.symm ▸ hmain) (hp.symm ▸ h.protocol_ne hrun) ?_
    exact (h.accounted_closeProtocol hrun rfl).mono fun i hi => hi.elim
  · exact h.moves hrun rfl hmain rfl rfl rfl fun hl => hl
  · exact h.moves hrun rfl hmain rfl rfl rfl fun hl => hl
  · exact h.moves hrun rfl hmain rfl rfl rfl fun hl => rfl
  · exact h.moves hrun rfl hmain rfl rfl rfl fun hl => hl
  · exact h.moves hrun rfl hmain rfl rfl rfl fun hl => by cases hl
  · exact h.moves hrun rfl hmain rfl rfl rfl fun hl => hl
  · exact h

/-- `__aexit__` once the run task has ended. -/
theorem Sound.disconnect {s : Client} (hrun : s.runTask = none)
    (hacc : Accounted s.transports fun i => s.protocol = some i) : Sound s.disconnect := by
  unfold Client.disconnect
  split
  · exact .ofIdle hrun rfl hacc
  · next t hp =>
    refine ⟨fun r hm => (by cases hm), fun _ => hrun, fun u hm => ?_, ?_⟩
    · rcases hm with hm | hm
      · cases hm
        exact ⟨hp, hrun⟩
      · cases hm
    · refine hacc.mono fun i hi => ?_
      unfold Holds
      dsimp only
      rw [hrun]
      exact hi

/-- A client without a run task, in no call. -/
theorem Sound.idle {s : Client} (h : Sound s) (hmain : s.main.letsRun = true)
    (hrun : s.runTask = none) : Accounted s.transports fun i => s.protocol = some i := by
  refine h.accounted.mono fun i hi => ?_
  rwa [holds_of_letsRun hmain, hrun] at hi

/-- The main task moves among the phases that let the run task go on. -/
theorem Sound.mainMoves {s : Client} (h : Sound s) (hmain : s.main.letsRun = true)
    {info : Option ConnectionInfo} {main : MainPhase} (hmain' : main.letsRun = true) :
    Sound { s with connectionInfo := info, main } := by
  rcases Option.eq_none_or_eq_some s.runTask with hrun | ⟨phase, hrun⟩
  · exact .ofIdle hrun hmain' (h.idle hmain hrun)
  · exact .ofRun hrun hmain' (h.protocol_ne hrun) (h.run hrun)

theorem notifyConnectionRecoveryFailed_main (s : Client) (awaiting afterwards : RunPhase) :
    (s.notifyConnectionRecoveryFailed awaiting afterwards).main = s.main := by
  unfold notifyConnectionRecoveryFailed
  split
  · rfl
  · rfl

theorem reconnected_main (s : Client) (after : RetryResult × List StreamTransport) :
    (s.reconnected after).main = s.main := by
  unfold reconnected
  dsimp only
  split
  · rfl
  · rfl
  · rfl
  · next e _ =>
    cases e with
    | osError => exact notifyConnectionRecoveryFailed_main _ _ _
    | timeout => exact notifyConnectionRecoveryFailed_main _ _ _
    | connectError code => exact notifyConnectionRecoveryFailed_main _ _ _
    | disconnected => rfl
    | protocolError => rfl
    | other => rfl

theorem cancelRun_main (s : Client) : s.cancelRun.main = s.main := by
  unfold cancelRun
  split
  · rfl
  · rfl
  · rfl
  · rfl
  · rfl
  · rfl
  · rfl
  · rfl
  · exact reconnected_main _ _

theorem Sound.stopRunTask {s : Client} (h : Sound s) (hmain : s.main.letsRun = true) :
    Sound s.stopRunTask := by
  unfold Client.stopRunTask
  split
  · next hrun => exact .disconnect hrun (h.idle hmain hrun)
  · exact h.cancelRun.mainMoves (s.cancelRun_main ▸ hmain) rfl

theorem Sound.stepRetry {s : Client} (h : Sound s) (e : RetryEvent) : Sound (s.stepRetry e) := by
  unfold Client.stepRetry
  split
  · next r hmain =>
    refine h.entered hmain (Accounted.retryStep (h.accounted.mono fun i hi => ?_) _ _ _)
    unfold Holds at hi
    rwa [hmain] at hi
  · next r hrun _ =>
    refine h.reconnected hrun (Accounted.retryStep ((h.run hrun).mono fun i hi => ?_) _ _ _)
    exact hi.resolve_right fun hi => Bool.false_ne_true hi.2.symm
  · exact h

/-- The main task leaves `__aexit__` with the protocol still set. -/
theorem Sound.leaves {s : Client} (h : Sound s) {t : Nat}
    (hmain : s.main = .disconnecting t ∨ s.main = .closing t) :
    Sound { s with main := .resting } := by
  refine .ofIdle (h.leaving t hmain).2 rfl (h.accounted.mono fun i hi => ?_)
  unfold Holds at hi
  rcases hmain with hm | hm
  · rwa [hm, (h.leaving t (Or.inl hm)).2] at hi
  · rw [hm] at hi
    exact hi.elim

theorem Sound.interrupt {s : Client} (h : Sound s) : Sound s.interrupt := by
  unfold Client.interrupt
  split
  · exact h
  · next r hmain =>
    refine h.entered hmain (Accounted.retryCancel (h.accounted.mono fun i hi => ?_))
    unfold Holds at hi
    rwa [hmain] at hi
  · next hmain => exact h.cancelRun.mainMoves (s.cancelRun_main ▸ hmain ▸ rfl) rfl
  · next hmain => exact h.mainMoves (hmain ▸ rfl) rfl
  · next hmain => exact h.leaves (Or.inl hmain)
  · next hmain => exact h.leaves (Or.inr hmain)

theorem Sound.step {s : Client} (h : Sound s) (e : LifeEvent) : Sound (s.step e) := by
  unfold Client.step
  split
  · next hmain =>
    split
    · next hnone =>
      have hprot := Option.isNone_iff_eq_none.1 hnone.1
      have hrun := Option.isNone_iff_eq_none.1 hnone.2
      refine ⟨fun _ _ => hprot, fun _ => hrun, fun t hm => ?_, ?_⟩
      · rcases hm with hm | hm
        · cases hm
        · cases hm
      · refine (h.idle (hmain ▸ rfl) hrun).mono fun i hi => ?_
        rw [hprot] at hi
        cases hi
    · exact h
  · next hmain => exact h.mainMoves (hmain ▸ rfl) rfl
  · next hmain => exact h.stopRunTask (hmain ▸ rfl)
  · next hmain =>
    split
    · next result hrun =>
      have hacc := h.run hrun
      have hended : Accounted s.transports fun i => s.protocol = some i := by
        refine hacc.mono fun i hi => ?_
        rcases hi with hi | ⟨hi, -⟩
        · cases hi
        · exact hi
      split
      · exact h.mainMoves (hmain ▸ rfl) rfl
      · exact .disconnect rfl hended
    · exact h
  · next t hmain =>
    obtain ⟨hprot, hrun⟩ := h.leaving t (Or.inl hmain)
    refine ⟨fun r hm => (by cases hm), fun _ => hrun, fun u hm => ?_, ?_⟩
    · rcases hm with hm | hm
      · cases hm
      · cases hm
        exact ⟨hprot, hrun⟩
    · refine (h.accounted.close t).mono fun i hi => ?_
      obtain ⟨hi, hne⟩ := hi
      unfold Holds at hi
      rw [hmain, hrun] at hi
      dsimp only at hi
      rw [hprot] at hi
      exact hne (Option.some.inj hi).symm
  · next t hmain =>
    refine .ofIdle (h.leaving t (Or.inr hmain)).2 rfl (h.accounted.mono fun i hi => ?_)
    unfold Holds at hi
    rw [hmain] at hi
    exact hi.elim
  · exact h.interrupt
  · exact h.stepRetry _
  · split
    · exact h
    · next phase hrun => exact h.stepRun hrun _

theorem sound_new (config : ClientConfig) (reconnect : ReconnectConfig) (callback : Bool) :
    Sound (new config reconnect callback) :=
  .ofIdle rfl rfl fun i t ht => (by cases ht)

/-! ## No leaks -/

/-- The transport of the handshake in progress. -/
def handshaking (s : Client) : Option Nat :=
  match s.main with
  | .entering r => r.held
  | _ => s.runTask.bind RunPhase.held

/-- A client without a connection, at rest, has closed every transport. -/
theorem Sound.all_closed {s : Client} (h : Sound s) (hmain : s.main = .resting)
    (hprot : s.protocol = none) : ∀ t ∈ s.transports, t.writerClosed = true := by
  intro t ht
  obtain ⟨i, hi⟩ := List.getElem?_of_mem ht
  by_contra ho
  have hheld := h.idle (hmain ▸ rfl) (h.task hprot) i t hi
  rw [hprot] at hheld
  cases hheld.2 (Bool.eq_false_of_not_eq_true ho)

/-- A connection is lost, the first reconnect is refused by the network and the second is cut off
    before CONNACK; the third succeeds and the client disconnects. -/
def lossRun : List LifeEvent :=
  [.enter, .retry .opened, .retry .sent, .retry (.received [32, 2]), .retry (.received [0, 0]),
    .runStarts, .connectionEof, .served (some .disconnected), .lostClosed, .reaped, .retry .wakes,
    .retry (.openFails .osError), .retry .wakes, .retry .opened, .retry .sent, .retry .timesOut,
    .retry .closed, .retry .wakes, .retry .opened, .retry .sent, .retry (.received [32, 2, 0, 0]),
    .exit, .pendingCancelled, .reaped, .runNotified, .joined, .disconnectSent, .disconnectClosed]

end Client

end Zmqtt
