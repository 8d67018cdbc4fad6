/-
  What a step of the calls of `Interests` is made of: steps of the protocol model, and the
  changes of the index that the calls make (`Moves`). An invariant of either part so holds along
  the runs of `Interests`.
-/
import Zmqtt.Session.Interests

namespace Zmqtt

/-! ## Changes of the index -/

/-- A change of the index by a call. -/
inductive IndexEdit where
  | addMany (entries : Dict String SubscriptionEntry)
  | removeAll (filters : List String)
  | addResponseObserver (topic : String)
  | removeResponseObserver (topic : String)

/-- The change adds and removes no entry of `filters`. -/
def IndexEdit.Elsewhere (filters : List String) : IndexEdit → Prop
  | .addMany entries => ∀ f ∈ entries.keys, f ∉ filters
  | .removeAll removed => ∀ f ∈ removed, f ∉ filters
  | .addResponseObserver _ | .removeResponseObserver _ => True

theorem IndexEdit.Elsewhere.mono {e : IndexEdit} {filters filters' : List String}
    (h : e.Elsewhere filters) (hsub : ∀ f ∈ filters', f ∈ filters) : e.Elsewhere filters' := by
  cases e with
  | addMany entries => exact fun f hf hin => h f hf (hsub f hin)
  | removeAll removed => exact fun f hf hin => h f hf (hsub f hin)
  | addResponseObserver topic => trivial
  | removeResponseObserver topic => trivial

namespace SubscriptionIndex

def edit (idx : SubscriptionIndex) : IndexEdit → SubscriptionIndex
  | .addMany entries => idx.addMany entries
  | .removeAll filters => Interests.removeAll idx filters
  | .addResponseObserver topic => idx.addResponseObserver topic
  | .removeResponseObserver topic => idx.removeResponseObserver topic

/-- `idx'` comes from `idx` by changes of calls. -/
def Edited (idx idx' : SubscriptionIndex) : Prop := ∃ edits : List IndexEdit, idx' = edits.foldl edit idx

theorem Edited.refl (idx : SubscriptionIndex) : Edited idx idx := ⟨[], rfl⟩

theorem Edited.trans {idx idx' idx'' : SubscriptionIndex} (h : Edited idx idx')
    (h' : Edited idx' idx'') : Edited idx idx'' := by
  obtain ⟨edits, rfl⟩ := h
  obtain ⟨edits', rfl⟩ := h'
  exact ⟨edits ++ edits', (List.foldl_append ..).symm⟩

theorem edited_edit (idx : SubscriptionIndex) (e : IndexEdit) : Edited idx (idx.edit e) := ⟨[e], rfl⟩

end SubscriptionIndex

/-! ## Calls -/

namespace Interests

open SubscriptionIndex (Edited edited_edit)

/-- Any step but the exit of `run()`. -/
def stays (_ : Protocol) (e : ProtocolEvent) : Prop := e ≠ .runExit

/-- From `s` to `s'` by steps of the protocol, none of them the exit of `run()`, and changes of
    the index. -/
structure Moves (s s' : Interests) : Prop where
  protocol : Reach Protocol.step stays s.protocol s'.protocol
  index : Edited s.index s'.index

variable {s s' s'' : Interests}

theorem Moves.refl (s : Interests) : Moves s s := ⟨Relation.ReflTransGen.refl, Edited.refl s.index⟩

theorem Moves.trans (h : Moves s s') (h' : Moves s' s'') : Moves s s'' :=
  ⟨h.protocol.trans h'.protocol, h.index.trans h'.index⟩

/-- The call ends. -/
theorem Moves.finish (h : Moves s s') (k : Nat) : Moves s (s'.finish k) := ⟨h.protocol, h.index⟩

theorem Moves.setPc (h : Moves s s') (k : Nat) (pc : InterestPc) : Moves s (s'.setPc k pc) :=
  ⟨h.protocol, h.index⟩

/-- One step of the protocol. -/
theorem moves_protocol (s : Interests) {e : ProtocolEvent} (he : e ≠ .runExit) :
    Moves s { s with protocol := s.protocol.step e } :=
  ⟨Relation.ReflTransGen.single ⟨e, he, rfl⟩, Edited.refl s.index⟩

/-- One change of the index. -/
theorem moves_edit (s : Interests) (e : IndexEdit) : Moves s { s with index := s.index.edit e } :=
  ⟨Relation.ReflTransGen.refl, edited_edit s.index e⟩

theorem moves_resubscribe (s : Interests) (k : Nat) (observedFilters : List String) :
    Moves s (s.resubscribe k observedFilters) := by
  have hsend := @moves_protocol s (.sendSubscribe (observedFilters.map observerRequest) none) nofun
  unfold Interests.resubscribe
  split
  · exact (Moves.refl s).finish k
  · dsimp only
    split
    · exact hsend.setPc k _
    · exact hsend.finish k

theorem moves_subscribe (s : Interests) (k : Nat) (filters : List SubscriptionRequest)
    (autoAck : Bool) (queue : Nat) (identifier : Option Int) :
    Moves s (s.subscribe k filters autoAck queue identifier) := by
  have hsend := (@moves_protocol s (.sendSubscribe filters identifier) nofun).trans
    (moves_edit _ (.addMany (s.newEntries filters autoAck queue identifier)))
  unfold Interests.subscribe
  dsimp only
  split
  · exact hsend.setPc k _
  · exact (hsend.trans (moves_edit _
      (.removeAll (s.newEntries filters autoAck queue identifier).keys))).finish k

theorem moves_unsubscribe (s : Interests) (k : Nat) (filters : List String) :
    Moves s (s.unsubscribe k filters) := by
  have hremove := moves_edit s (.removeAll filters)
  unfold Interests.unsubscribe
  split
  · exact (Moves.refl s).finish k
  · dsimp only
    split
    · exact hremove.trans (moves_resubscribe _ k _)
    · split
      · exact (hremove.trans (@moves_protocol _ (.sendUnsubscribe _) nofun)).setPc k _
      · exact (hremove.trans (@moves_protocol _ (.sendUnsubscribe _) nofun)).finish k

theorem moves_addResponseObserver (s : Interests) (k : Nat) (topic : String) :
    Moves s (s.addResponseObserver k topic) := by
  have hadd := moves_edit s (.addResponseObserver topic)
  have hsend := hadd.trans (@moves_protocol _ (.sendSubscribe [observerRequest topic] none) nofun)
  unfold Interests.addResponseObserver
  split
  · exact (Moves.refl s).finish k
  · dsimp only
    split
    · exact hadd.finish k
    · split
      · exact hsend.setPc k _
      · exact (hsend.trans (moves_edit _ (.removeResponseObserver topic))).finish k

theorem moves_removeResponseObserver (s : Interests) (k : Nat) (topic : String) :
    Moves s (s.removeResponseObserver k topic) := by
  have hremove := moves_edit s (.removeResponseObserver topic)
  have hsend := hremove.trans (@moves_protocol _ (.sendUnsubscribe [topic]) nofun)
  unfold Interests.removeResponseObserver
  split
  · exact (Moves.refl s).finish k
  · dsimp only
    split
    · exact hremove.finish k
    · split
      · exact hsend.setPc k _
      · exact hsend.finish k

theorem moves_enter (s : Interests) (k : Nat) (call : InterestCall) :
    Moves s (s.enter k call) := by
  unfold Interests.enter
  split
  · cases call with
    | subscribe filters autoAck queue identifier =>
      exact moves_subscribe s k filters autoAck queue identifier
    | unsubscribe filters => exact moves_unsubscribe s k filters
    | addResponseObserver topic => exact moves_addResponseObserver s k topic
    | removeResponseObserver topic => exact moves_removeResponseObserver s k topic
  · exact Moves.refl s

theorem moves_settle (s : Interests) (k : Nat) (pc : InterestPc) : Moves s (s.settle k pc) := by
  have hend := (Moves.refl s).finish k
  cases pc with
  | entering | ended => exact Moves.refl s
  | resubscribing exchange | releasing exchange => exact hend
  | subscribing exchange newFilters =>
    unfold Interests.settle
    dsimp only
    split
    · exact hend
    · exact (moves_edit s (.removeAll newFilters)).finish k
  | unsubscribing exchange observedFilters =>
    unfold Interests.settle
    dsimp only
    split
    · exact moves_resubscribe s k observedFilters
    · exact hend
  | observing exchange topic =>
    unfold Interests.settle
    dsimp only
    split
    · exact hend
    · exact (moves_edit s (.removeResponseObserver topic)).finish k

theorem moves_resume (s : Interests) (k : Nat) (written : Bool) :
    Moves s (s.resume k written) := by
  unfold Interests.resume
  split
  · exact Moves.refl s
  · split
    · exact Moves.refl s
    · next i _ =>
      have hresume := @moves_protocol s (.resume i written) nofun
      dsimp only
      split
      · exact hresume
      · exact hresume.trans (moves_settle _ k _)

theorem moves_cancel (s : Interests) (k : Nat) : Moves s (s.cancel k) := by
  unfold Interests.cancel
  split
  · exact Moves.refl s
  · split
    · exact ⟨Relation.ReflTransGen.refl, Edited.refl s.index⟩
    · exact @moves_protocol s (.cancel _) nofun
    · exact Moves.refl s

/-- Guards and tasks are no part of the moves. -/
theorem Moves.of_enter (s : Interests) (guards : SubscriptionGuards) (tasks : List InterestTask)
    (k : Nat) (call : InterestCall) : Moves s ({ s with guards, tasks }.enter k call) := by
  have h := moves_enter { s with guards, tasks } k call
  exact ⟨h.protocol, h.index⟩

theorem moves_step (s : Interests) {e : InterestEvent} (he : e ≠ .background .runExit) :
    Moves s (s.step e) := by
  cases e with
  | start call => exact Moves.of_enter s _ _ _ call
  | locked k =>
    rw [Interests.step, Interests.locked]
    split
    · split
      · exact Moves.of_enter s _ _ k _
      · exact Moves.refl s
    · exact Moves.refl s
  | resume k written => exact moves_resume s k written
  | cancel k => exact moves_cancel s k
  | background e =>
    rw [Interests.step]
    split
    · exact moves_protocol s fun hexit => he (by rw [hexit])
    · exact Moves.refl s

theorem edited_step (s : Interests) (e : InterestEvent) : Edited s.index (s.step e).index := by
  by_cases he : e = .background .runExit
  · rw [he]
    exact Edited.refl s.index
  · exact (moves_step s he).index

theorem reach_step (s : Interests) (e : InterestEvent) :
    Reach Protocol.step anyStep s.protocol (s.step e).protocol := by
  by_cases he : e = .background .runExit
  · rw [he]
    exact Relation.ReflTransGen.single ⟨.runExit, trivial, rfl⟩
  · exact (moves_step s he).protocol.mono fun _ _ _ => trivial

end Interests

end Zmqtt
