/-
  The entries of the index on one connection: a `subscribe` call adds entries with its own
  queue, every other step only takes entries out, and an `unsubscribe` call takes out the
  entries of its filters as soon as it has its guards, if the connection is alive.
-/
import Zmqtt.Session.Interests

namespace Zmqtt

namespace SubscriptionIndex

/-! ## The index -/

theorem get?_remove (index : SubscriptionIndex) (f g : String) :
    (index.remove f).entries.get? g = if f = g then none else index.entries.get? g := by
  unfold remove
  split
  · next hnone =>
    split
    · next he => rw [← he, hnone]
    · rfl
  · exact Dict.get?_pop _ _ _

theorem get?_add (index : SubscriptionIndex) (f g : String) (entry : SubscriptionEntry) :
    (index.add f entry).entries.get? g = if f = g then some entry else index.entries.get? g := by
  unfold add register
  rw [Dict.get?_set]
  split
  · rfl
  · next hne =>
    split
    · rw [get?_remove, if_neg hne]
    · rfl

theorem get?_addMany {index : SubscriptionIndex} {entries : Dict String SubscriptionEntry}
    {g : String} {entry : SubscriptionEntry}
    (h : (index.addMany entries).entries.get? g = some entry) :
    index.entries.get? g = some entry ∨ (g, entry) ∈ entries := by
  unfold addMany at h
  induction entries generalizing index with
  | nil => exact Or.inl h
  | cons item entries ih =>
    rw [List.foldl_cons] at h
    rcases ih h with h | h
    · rw [get?_add] at h
      split at h
      · next he =>
        right
        rw [← he, ← Option.some.inj h]
        exact List.mem_cons_self
      · exact Or.inl h
    · exact Or.inr (List.mem_cons_of_mem _ h)

end SubscriptionIndex

namespace Interests

theorem get?_removeAll (index : SubscriptionIndex) (filters : List String) (g : String) :
    (removeAll index filters).entries.get? g =
      if g ∈ filters then none else index.entries.get? g := by
  unfold removeAll
  induction filters generalizing index with
  | nil => simp
  | cons f filters ih =>
    rw [List.foldl_cons, ih, SubscriptionIndex.get?_remove]
    by_cases hg : g ∈ filters
    · simp [hg]
    · by_cases hfg : f = g
      · simp [hfg]
      · simp [hg, hfg, Ne.symm hfg]

/-- The new entries of a call have its queue. -/
theorem queue_newEntries {s : Interests} {filters : List SubscriptionRequest} {autoAck : Bool}
    {queue : Nat} {identifier : Option Int} {item : String × SubscriptionEntry}
    (h : item ∈ s.newEntries filters autoAck queue identifier) : item.2.queue = queue := by
  have hloop : ∀ (reqs : List SubscriptionRequest) (entries : Dict String SubscriptionEntry),
      (∀ item ∈ entries, item.2.queue = queue) → ∀ item ∈ reqs.foldl (fun entries req =>
        if s.index.contains req.topicFilter then entries
        else entries.set req.topicFilter
          { queue, autoAck
            actualFilter := sharedFilterToActual req.topicFilter s.strippedPrefixes
            subscriptionIdentifier := identifier }) entries, item.2.queue = queue := by
    intro reqs
    induction reqs with
    | nil => exact fun entries hall => hall
    | cons req reqs ih =>
      intro entries hall
      rw [List.foldl_cons]
      split
      · exact ih entries hall
      · refine ih _ fun item hin => ?_
        rcases Dict.mem_set hin with hin | rfl
        · exact hall item hin
        · rfl
  exact hloop filters [] nofun item h

/-! ## One call -/

/-- Call `k` goes on. It may add entries when it has got its guards. -/
structure Acts (k : Nat) (task : InterestTask) (s s' : Interests) : Prop where
  length : s'.tasks.length = s.tasks.length
  others : ∀ j, j ≠ k → s'.tasks[j]? = s.tasks[j]?
  own : ∃ pc, s'.tasks[k]? = some { task with pc } ∧ (pc = .entering → task.pc = .entering)
  dead : s'.protocol.dead = s.protocol.dead
  entries : ∀ f entry, s'.index.entries.get? f = some entry → s.index.entries.get? f = some entry ∨
    task.pc = .entering ∧ ∃ filters a i, task.call = .subscribe filters a entry.queue i

variable {s : Interests} {k : Nat} {task : InterestTask}

/-- A call has got its guards, and changed the index in one of the ways above. -/
theorem Acts.goOn (hk : s.tasks[k]? = some task) {protocol : Protocol} {index : SubscriptionIndex}
    (guards : SubscriptionGuards) (hdead : protocol.dead = s.protocol.dead)
    (hentries : ∀ f entry, index.entries.get? f = some entry →
      s.index.entries.get? f = some entry ∨
        task.pc = .entering ∧ ∃ filters a i, task.call = .subscribe filters a entry.queue i)
    {pc : InterestPc} (hpc : pc = .entering → task.pc = .entering) :
    Acts k task s (setPc { s with protocol, index, guards } k pc) := by
  have htasks : (setPc { s with protocol, index, guards } k pc).tasks = s.tasks.set k { task with pc } :=
    modify_of_get _ hk
  refine ⟨?_, fun j hj => ?_, ⟨pc, ?_, hpc⟩, hdead, hentries⟩
  · rw [htasks, List.length_set]
  · rw [htasks, List.getElem?_set_ne (Ne.symm hj)]
  · rw [htasks, List.getElem?_set_self (List.getElem?_eq_some_iff.1 hk).1]

theorem dead_startCall (p : Protocol) (kind : CallKind) (filters : List String)
    (packetOf : Int → Packet) : (p.startCall kind filters packetOf).dead = p.dead := by
  unfold Protocol.startCall
  split
  · rfl
  · split
    · rfl
    · dsimp only
      split <;> rfl

theorem Acts.subscribe {filters : List SubscriptionRequest} {autoAck : Bool} {queue : Nat}
    {identifier : Option Int} (hk : s.tasks[k]? = some task) (hpc : task.pc = .entering)
    (hcall : task.call = .subscribe filters autoAck queue identifier) :
    Acts k task s (s.subscribe k filters autoAck queue identifier) := by
  have hdead := dead_startCall s.protocol .subscribe (filters.map (·.topicFilter)) fun pid =>
    .subscribe ⟨pid, filters, identifier.map fun i => { subscriptionIdentifier := some i }⟩
  have hadded : ∀ f entry, (s.index.addMany (s.newEntries filters autoAck queue identifier)).entries.get?
      f = some entry → s.index.entries.get? f = some entry ∨
        task.pc = .entering ∧ ∃ filters a i, task.call = .subscribe filters a entry.queue i := by
    intro f entry hf
    refine (SubscriptionIndex.get?_addMany hf).imp_right fun hin => ⟨hpc, filters, autoAck, identifier, ?_⟩
    rw [hcall, ← queue_newEntries hin]
  unfold Interests.subscribe
  dsimp only
  split
  · exact Acts.goOn hk s.guards hdead hadded nofun
  · refine Acts.goOn hk _ hdead (fun f entry hf => ?_) nofun
    rw [get?_removeAll] at hf
    split at hf
    · cases hf
    · exact hadded f entry hf

/-- The entries of the filters are gone. -/
def Released (filters : List String) (s : Interests) : Prop :=
  ∀ f ∈ filters, s.index.entries.get? f = none

theorem Acts.resubscribe (hk : s.tasks[k]? = some task) (observedFilters : List String) :
    Acts k task s (s.resubscribe k observedFilters) ∧
      (s.resubscribe k observedFilters).index = s.index := by
  have hdead := dead_startCall s.protocol .subscribe
    ((observedFilters.map observerRequest).map (·.topicFilter)) fun pid =>
      .subscribe ⟨pid, observedFilters.map observerRequest, (none : Option Int).map fun i =>
        { subscriptionIdentifier := some i }⟩
  unfold Interests.resubscribe
  split
  · exact ⟨Acts.goOn hk _ rfl (fun _ _ hf => Or.inl hf) nofun, rfl⟩
  · dsimp only
    split
    · exact ⟨Acts.goOn hk s.guards hdead (fun _ _ hf => Or.inl hf) nofun, rfl⟩
    · exact ⟨Acts.goOn hk _ hdead (fun _ _ hf => Or.inl hf) nofun, rfl⟩

/-- The call has its guards: on a connection that is alive its entries go. -/
theorem Acts.unsubscribe (hk : s.tasks[k]? = some task) (filters : List String) :
    Acts k task s (s.unsubscribe k filters) ∧
      (s.protocol.dead = false → Released filters (s.unsubscribe k filters)) := by
  have hless : ∀ f entry, (removeAll s.index filters).entries.get? f = some entry →
      s.index.entries.get? f = some entry := by
    intro f entry hf
    rw [get?_removeAll] at hf
    split at hf
    · cases hf
    · exact hf
  have hgone : ∀ f ∈ filters, (removeAll s.index filters).entries.get? f = none := fun f hf => by
    rw [get?_removeAll, if_pos hf]
  have hdead (broker : List String) := dead_startCall s.protocol .unsubscribe broker fun pid =>
    .unsubscribe { packetId := pid, topicFilters := broker }
  unfold Interests.unsubscribe
  split
  · next hd =>
    refine ⟨Acts.goOn hk _ rfl (fun _ _ hf => Or.inl hf) nofun, fun halive => ?_⟩
    rw [hd] at halive
    cases halive
  · dsimp only
    split
    · obtain ⟨hacts, hindex⟩ := Acts.resubscribe
        (s := { s with index := removeAll s.index filters }) hk
        (filters.filter fun f => s.index.hasResponseObserver f)
      refine ⟨⟨hacts.length, hacts.others, hacts.own, hacts.dead, fun f entry hf => ?_⟩, fun _ f hf => ?_⟩
      · rw [hindex] at hf
        exact Or.inl (hless f entry hf)
      · rw [hindex]
        exact hgone f hf
    · split
      · exact ⟨Acts.goOn hk s.guards (hdead _) (fun f entry hf => Or.inl (hless f entry hf)) nofun,
          fun _ => hgone⟩
      · exact ⟨Acts.goOn hk _ (hdead _) (fun f entry hf => Or.inl (hless f entry hf)) nofun,
          fun _ => hgone⟩

theorem Acts.addResponseObserver (hk : s.tasks[k]? = some task) (topic : String) :
    Acts k task s (s.addResponseObserver k topic) := by
  have hsame : (s.index.addResponseObserver topic).entries = s.index.entries := by
    unfold SubscriptionIndex.addResponseObserver
    split <;> rfl
  have hkeep : ∀ f entry, (s.index.addResponseObserver topic).entries.get? f = some entry →
      s.index.entries.get? f = some entry ∨ task.pc = .entering ∧
        ∃ filters a i, task.call = .subscribe filters a entry.queue i := fun f entry hf => by
    rw [hsame] at hf
    exact Or.inl hf
  have hdead := dead_startCall s.protocol .subscribe ([observerRequest topic].map (·.topicFilter))
    fun pid => .subscribe ⟨pid, [observerRequest topic], (none : Option Int).map fun i =>
      { subscriptionIdentifier := some i }⟩
  unfold Interests.addResponseObserver
  split
  · exact Acts.goOn hk _ rfl (fun _ _ hf => Or.inl hf) nofun
  · dsimp only
    split
    · exact Acts.goOn hk _ rfl hkeep nofun
    · split
      · exact Acts.goOn hk s.guards hdead hkeep nofun
      · refine Acts.goOn hk _ hdead (fun f entry hf => ?_) nofun
        exact hkeep f entry hf

theorem Acts.removeResponseObserver (hk : s.tasks[k]? = some task) (topic : String) :
    Acts k task s (s.removeResponseObserver k topic) := by
  have hdead := dead_startCall s.protocol .unsubscribe [topic] fun pid =>
    .unsubscribe { packetId := pid, topicFilters := [topic] }
  have hkeep : ∀ f entry, (s.index.removeResponseObserver topic).entries.get? f = some entry →
      s.index.entries.get? f = some entry ∨ task.pc = .entering ∧
        ∃ filters a i, task.call = .subscribe filters a entry.queue i := fun _ _ hf => Or.inl hf
  unfold Interests.removeResponseObserver
  split
  · exact Acts.goOn hk _ rfl (fun _ _ hf => Or.inl hf) nofun
  · dsimp only
    split
    · exact Acts.goOn hk _ rfl hkeep nofun
    · split
      · exact Acts.goOn hk s.guards hdead hkeep nofun
      · exact Acts.goOn hk _ hdead hkeep nofun

/-- A call that may have got its guards. -/
theorem Acts.enter (hk : s.tasks[k]? = some task) (hpc : task.pc = .entering) :
    Acts k task s (s.enter k task.call) ∧ ∀ filters, task.call = .unsubscribe filters →
      s.protocol.dead = false → (s.enter k task.call).tasks[k]? = some task ∨
        Released filters (s.enter k task.call) := by
  have hsame : Acts k task s s := by
    refine ⟨rfl, fun _ _ => rfl, ⟨task.pc, hk, fun he => he⟩, rfl, fun _ _ hf => Or.inl hf⟩
  unfold Interests.enter
  split
  · cases hcall : task.call with
    | subscribe filters autoAck queue identifier =>
      exact ⟨Acts.subscribe hk hpc hcall, nofun⟩
    | unsubscribe filters =>
      obtain ⟨hacts, hreleased⟩ := Acts.unsubscribe hk filters
      refine ⟨hacts, fun filters' he halive => Or.inr ?_⟩
      cases he
      exact hreleased halive
    | addResponseObserver topic => exact ⟨Acts.addResponseObserver hk topic, nofun⟩
    | removeResponseObserver topic => exact ⟨Acts.removeResponseObserver hk topic, nofun⟩
  · exact ⟨hsame, fun _ _ _ => Or.inl hk⟩

/-- A call whose exchange has ended. -/
theorem Acts.settle {pc : InterestPc} (hk : s.tasks[k]? = some task) (hpc : pc.exchange? ≠ none) :
    Acts k task s (s.settle k pc) := by
  have hless : ∀ filters f entry, (removeAll s.index filters).entries.get? f = some entry →
      s.index.entries.get? f = some entry ∨ task.pc = .entering ∧
        ∃ filters a i, task.call = .subscribe filters a entry.queue i := by
    intro filters f entry hf
    rw [get?_removeAll] at hf
    split at hf
    · cases hf
    · exact Or.inl hf
  have hend : Acts k task s (s.finish k) := Acts.goOn hk _ rfl (fun _ _ hf => Or.inl hf) nofun
  unfold Interests.settle
  split
  · exact absurd rfl hpc
  · exact absurd rfl hpc
  · split
    · exact hend
    · exact Acts.goOn hk _ rfl (hless _) nofun
  · split
    · exact (Acts.resubscribe hk _).1
    · exact hend
  · next topic =>
    split
    · exact hend
    · refine Acts.goOn hk _ rfl (fun f entry hf => ?_) nofun
      exact Or.inl hf
  · exact hend
  · exact hend

/-! ## One step -/

theorem dead_resume (p : Protocol) (i : Nat) (written : Bool) : (p.resume i written).dead = p.dead := by
  unfold Protocol.resume Protocol.finish
  split
  · rfl
  · split
    · rfl
    · split
      · rfl
      · split
        · split <;> rfl
        · rfl
    · split
      · rfl
      · split <;> rfl

theorem dead_cancel (p : Protocol) (i : Nat) : (p.cancel i).dead = p.dead := by
  unfold Protocol.cancel
  split
  · rfl
  · split
    · rfl
    · rfl
    · split <;> rfl

theorem dead_setFuture (p : Protocol) (i : Nat) (future : FutureState) :
    (p.setFuture i future).dead = p.dead := by
  unfold Protocol.setFuture
  split
  · rfl
  · split <;> rfl

theorem dead_setResult {p p' : Protocol} {i : Nat} {packet : Packet}
    (h : p.setResult i packet = .ok p') : p'.dead = p.dead := by
  unfold Protocol.setResult at h
  split at h
  · cases h
  · split at h
    · cases h
      rfl
    · cases h

theorem dead_dispatch {p p' : Protocol} {packet : Packet} (h : p.dispatch packet = .ok p') :
    p'.dead = p.dead := by
  unfold Protocol.dispatch at h
  split at h
  · cases h; rfl
  · cases h; rfl
  · cases h; rfl
  · unfold Protocol.handlePuback at h
    split at h
    · cases h
    · cases h; exact dead_setFuture _ _ _
  · unfold Protocol.handlePubrec at h
    split at h
    · cases h
    · split at h
      · cases h
      · split at h
        · cases h; exact dead_setFuture _ _ _
        · cases h; rfl
  · unfold Protocol.handlePubcomp at h
    split at h
    · cases h
    · cases h; exact dead_setFuture _ _ _
  · unfold Protocol.handleSuback at h
    split at h
    · cases h
    · exact dead_setResult h
  · unfold Protocol.handleUnsuback at h
    split at h
    · cases h
    · exact dead_setResult h
  · cases h
  · split at h
    · cases h
    · cases h; rfl
  all_goals cases h

/-- A connection that has ended does not come back. -/
theorem dead_step {p : Protocol} (hd : p.dead = true) (e : ProtocolEvent) : (p.step e).dead = true := by
  cases e with
  | publish packet =>
    rw [Protocol.step, Protocol.publish, if_pos (Or.inl hd)]
    exact hd
  | sendSubscribe filters identifier => exact (dead_startCall p _ _ _).trans hd
  | sendUnsubscribe filters => exact (dead_startCall p _ _ _).trans hd
  | resume i written => exact (dead_resume p i written).trans hd
  | cancel i => exact (dead_cancel p i).trans hd
  | receive packet =>
    rw [Protocol.step, Protocol.receive]
    split
    · split
      · next p' hok => exact (dead_dispatch hok).trans hd
      · exact hd
    · exact hd
    · exact hd
  | resumeReadLoop written =>
    rw [Protocol.step, Protocol.resumeReadLoop]
    split <;> exact hd
  | runExit =>
    rw [Protocol.step, Protocol.runExit]
    have hfold : ∀ (calls : List Nat) (p : Protocol), p.dead = true →
        (calls.foldl (fun p i => p.setFuture i (.exception .disconnected)) p).dead = true := by
      intro calls
      induction calls with
      | nil => exact fun _ h => h
      | cons i calls ih => exact fun p h => ih _ ((dead_setFuture p i _).trans h)
    exact hfold _ _ rfl

/-- A new call: it waits for its guards, and may go on at once. -/
theorem start_acts (s : Interests) (call : InterestCall) :
    Acts s.tasks.length { call }
      { s with guards := s.guards.hold call.filters, tasks := s.tasks ++ [{ call }] }
      (s.start call) ∧
    ∀ filters, call = .unsubscribe filters → s.protocol.dead = false →
      (s.start call).tasks[s.tasks.length]? = some { call } ∨ Released filters (s.start call) := by
  have hk : ({ s with guards := s.guards.hold call.filters, tasks := s.tasks ++ [{ call }] } :
      Interests).tasks[s.tasks.length]? = some { call } := List.getElem?_concat_length ..
  exact Acts.enter hk rfl

/-- What a step of a connection does, other than a new call. -/
theorem step_cases (s : Interests) (e : InterestEvent) (he : ∀ call, e ≠ .start call) :
    ((s.step e).tasks = s.tasks ∧ (s.step e).index = s.index ∧
      (s.protocol.dead = true → (s.step e).protocol.dead = true)) ∨
    ∃ k task, s.tasks[k]? = some task ∧ task.pc ≠ .ended ∧ Acts k task s (s.step e) ∧
      ∀ filters, task.call = .unsubscribe filters → task.pc = .entering →
        (s.step e).tasks[k]? = some task ∨ Released filters (s.step e) ∨ e = .cancel k ∨
          s.protocol.dead = true ∧ e = .locked k := by
  have hsame : s.tasks = s.tasks ∧ s.index = s.index ∧
      (s.protocol.dead = true → s.protocol.dead = true) := ⟨rfl, rfl, fun h => h⟩
  cases e with
  | start call => exact absurd rfl (he call)
  | locked k =>
    rw [Interests.step, locked]
    split
    · next task hk =>
      split
      · next hpc =>
        obtain ⟨hacts, hunsub⟩ := Acts.enter (s := { s with guards := s.guards.resume k }) hk hpc
        refine Or.inr ⟨k, task, hk, by rw [hpc]; decide, ⟨hacts.length, hacts.others, hacts.own, hacts.dead,
          hacts.entries⟩, fun filters hcall _ => ?_⟩
        cases hd : s.protocol.dead with
        | true => exact Or.inr (Or.inr (Or.inr ⟨rfl, rfl⟩))
        | false => exact (hunsub filters hcall hd).imp_right Or.inl
      · exact Or.inl hsame
    · exact Or.inl hsame
  | resume k written =>
    rw [Interests.step, Interests.resume]
    split
    · exact Or.inl hsame
    · next task hk =>
      split
      · exact Or.inl hsame
      · next i hi =>
        have hdead := dead_resume s.protocol i written
        dsimp only
        split
        · exact Or.inl ⟨rfl, rfl, fun hd => hdead.trans hd⟩
        · have hex : task.pc.exchange? ≠ none := by rw [hi]; exact Option.some_ne_none i
          have hacts := Acts.settle (s := { s with protocol := s.protocol.resume i written }) hk hex
          refine Or.inr ⟨k, task, hk, ?_, ⟨hacts.length, hacts.others, hacts.own, hacts.dead.trans hdead,
            hacts.entries⟩, fun filters _ hpc => ?_⟩
          · intro hpc
            rw [hpc] at hex
            exact hex rfl
          · rw [hpc] at hex
            exact absurd rfl hex
  | cancel k =>
    rw [Interests.step, Interests.cancel]
    split
    · exact Or.inl hsame
    · next task hk =>
      split
      · next _ hpc =>
        refine Or.inr ⟨k, task, hk, by rw [hpc]; decide, ?_, fun _ _ _ =>
          Or.inr (Or.inr (Or.inl rfl))⟩
        exact Acts.goOn hk _ rfl (fun _ _ hf => Or.inl hf) fun he => by cases he
      · exact Or.inl ⟨rfl, rfl, fun hd => (dead_cancel s.protocol _).trans hd⟩
      · exact Or.inl hsame
  | background e =>
    rw [Interests.step]
    split
    · exact Or.inl ⟨rfl, rfl, fun hd => dead_step hd e⟩
    · exact Or.inl hsame

end Interests

end Zmqtt
