/-
  The calls of `Interests` as tasks of the guards (`_subscription_guards.hold` around each of
  them in `_internal/protocol.py`). A call sends its packets inside its guards, and they name
  its own filters only; so while a call is inside, no other call writes about its filters.

  `step_before` splits a step in two: what happens before a call goes on inside its guards, and
  the call that goes on (`Progress`).
-/
import Zmqtt.Session.GuardExclusion
import Zmqtt.Session.Interests

namespace Zmqtt

/-- The filters that a call subscribes again are filters of the call. -/
def InterestTask.Within (task : InterestTask) : Prop :=
  ∀ i observed, task.pc = .unsubscribing i observed → ∀ f ∈ observed, f ∈ task.call.filters

namespace Interests

variable {s s' : Interests} {k : Nat} {task : InterestTask}

/-! ## What a call writes -/

theorem writes_sendSubscribe {filters : List String} (p : Protocol) (requests : List SubscriptionRequest)
    (identifier : Option Int) (h : ∀ f ∈ requests.map (·.topicFilter), f ∈ filters) :
    Writes filters p (p.sendSubscribe requests identifier) := by
  refine writes_startCall p _ _ _ fun pid f hne => h f ?_
  by_contra hnot
  exact hne (if_neg hnot)

theorem writes_sendUnsubscribe {filters : List String} (p : Protocol) (names : List String)
    (h : ∀ f ∈ names, f ∈ filters) : Writes filters p (p.sendUnsubscribe names) := by
  refine writes_startCall p _ _ _ fun pid f hne => h f ?_
  by_contra hnot
  exact hne (if_neg hnot)

/-! ## Calls and their guards -/

/-- The calls are the tasks of the guards, and a call waits for an exchange inside its guards. -/
structure Guarded (s : Interests) : Prop where
  inv : s.guards.GuardInv
  filters : (s.guards.tasks.map HoldTask.entries).map (List.map Prod.fst) =
    s.tasks.map fun task => SubscriptionGuards.sortedSet task.call.filters
  inside : ∀ (k : Nat) task, s.tasks[k]? = some task → task.pc.exchange? ≠ none →
    s.guards.isInside k = true
  within : ∀ task ∈ s.tasks, InterestTask.Within task

theorem guarded_fresh (version : Version) (maxPublishQos : QoS) (strippedPrefixes : List String) :
    (fresh version maxPublishQos strippedPrefixes).Guarded :=
  ⟨SubscriptionGuards.guardInv_empty, rfl, fun _ _ hk => absurd hk (by simp [fresh]),
    fun _ hmem => absurd hmem (by simp [fresh])⟩

theorem Guarded.length (h : s.Guarded) : s.guards.tasks.length = s.tasks.length := by
  have hlength := congrArg List.length h.filters
  rw [List.length_map, List.length_map, List.length_map] at hlength
  exact hlength

/-- The guards of a call that is inside. -/
theorem Guarded.holdTask (h : s.Guarded) (hk : s.tasks[k]? = some task)
    (hinside : s.guards.isInside k = true) :
    ∃ held, s.guards.tasks[k]? = some held ∧ held.stage = .inside ∧
      held.entries.map Prod.fst = SubscriptionGuards.sortedSet task.call.filters := by
  obtain ⟨held, hheld, hstage⟩ := (Option.any_eq_true _ _).1 hinside
  refine ⟨held, hheld, of_decide_eq_true hstage, ?_⟩
  have hfilters := congrArg (·[k]?) h.filters
  rw [List.getElem?_map, List.getElem?_map, List.getElem?_map, hheld, hk] at hfilters
  exact Option.some.inj hfilters

/-- Two calls inside their guards have no filter in common. -/
theorem Guarded.disjoint (h : s.Guarded) {j : Nat} {other : InterestTask} (hne : j ≠ k)
    (hk : s.tasks[k]? = some task) (hj : s.tasks[j]? = some other)
    (hinside : s.guards.isInside k = true) (hinside' : s.guards.isInside j = true) :
    ∀ f ∈ task.call.filters, f ∉ other.call.filters := by
  intro f hf hf'
  obtain ⟨held, hheld, hstage, hfilters⟩ := h.holdTask hk hinside
  obtain ⟨held', hheld', hstage', hfilters'⟩ := h.holdTask hj hinside'
  have hmem : f ∈ held.entries.map Prod.fst := by
    rw [hfilters]
    exact SubscriptionGuards.mem_sortedSet.2 hf
  have hmem' : f ∈ held'.entries.map Prod.fst := by
    rw [hfilters']
    exact SubscriptionGuards.mem_sortedSet.2 hf'
  exact hne (h.inv.exclusive hheld' hheld hstage' hstage hmem' hmem)

/-- Call `k` goes on inside its guards: it waits for an exchange, or ends and leaves them. -/
structure Progress (k : Nat) (task : InterestTask) (s s' : Interests) : Prop where
  own : ∃ pc, s'.tasks = s.tasks.set k { task with pc } ∧
    (pc = .ended ∧ s'.guards = s.guards.exit k ∨
      pc.exchange? ≠ none ∧ InterestTask.Within { task with pc } ∧ s'.guards = s.guards)
  writes : Writes task.call.filters s.protocol s'.protocol

theorem progress_setPc (hk : s.tasks[k]? = some task) {protocol : Protocol}
    (index : SubscriptionIndex) (hw : Writes task.call.filters s.protocol protocol) {pc : InterestPc}
    (hpc : pc.exchange? ≠ none) (hwithin : InterestTask.Within { task with pc }) :
    Progress k task s (setPc { s with protocol, index } k pc) :=
  ⟨⟨pc, modify_of_get _ hk, Or.inr ⟨hpc, hwithin, rfl⟩⟩, hw⟩

theorem progress_finish (hk : s.tasks[k]? = some task) {protocol : Protocol}
    (index : SubscriptionIndex) (hw : Writes task.call.filters s.protocol protocol) :
    Progress k task s (finish { s with protocol, index } k) :=
  ⟨⟨.ended, modify_of_get _ hk, Or.inl ⟨rfl, rfl⟩⟩, hw⟩

/-- The index is no part of the progress. -/
theorem Progress.of_index {index : SubscriptionIndex} (h : Progress k task { s with index } s') :
    Progress k task s s' := ⟨h.own, h.writes⟩

theorem progress_subscribe (hk : s.tasks[k]? = some task) {filters : List SubscriptionRequest}
    {autoAck : Bool} {queue : Nat} {identifier : Option Int}
    (hcall : task.call = .subscribe filters autoAck queue identifier) :
    Progress k task s (s.subscribe k filters autoAck queue identifier) := by
  have hw : Writes task.call.filters s.protocol (s.protocol.sendSubscribe filters identifier) := by
    refine writes_sendSubscribe _ _ _ fun f hf => ?_
    rw [hcall]
    exact hf
  unfold Interests.subscribe
  dsimp only
  split
  · exact progress_setPc hk _ hw (Option.some_ne_none _) nofun
  · exact progress_finish hk _ hw

theorem progress_resubscribe (hk : s.tasks[k]? = some task) {observedFilters : List String}
    (hsub : ∀ f ∈ observedFilters, f ∈ task.call.filters) :
    Progress k task s (s.resubscribe k observedFilters) := by
  have hw : Writes task.call.filters s.protocol
      (s.protocol.sendSubscribe (observedFilters.map observerRequest) none) := by
    refine writes_sendSubscribe _ _ _ fun f hf => hsub f ?_
    rw [List.map_map] at hf
    obtain ⟨f', hf', rfl⟩ := List.mem_map.1 hf
    exact hf'
  unfold Interests.resubscribe
  split
  · exact progress_finish hk s.index (Or.inl rfl)
  · dsimp only
    split
    · exact progress_setPc hk s.index hw (Option.some_ne_none _) nofun
    · exact progress_finish hk s.index hw

theorem progress_unsubscribe (hk : s.tasks[k]? = some task) {filters : List String}
    (hcall : task.call = .unsubscribe filters) : Progress k task s (s.unsubscribe k filters) := by
  unfold Interests.unsubscribe
  split
  · exact progress_finish hk s.index (Or.inl rfl)
  · dsimp only
    split
    · refine Progress.of_index
        (progress_resubscribe (s := { s with index := removeAll s.index filters }) hk fun f hf => ?_)
      rw [hcall]
      exact (List.mem_filter.1 hf).1
    · have hw : ∀ names, (∀ f ∈ names, f ∈ filters) →
          Writes task.call.filters s.protocol (s.protocol.sendUnsubscribe names) := by
        intro names hnames
        refine writes_sendUnsubscribe _ _ fun f hf => ?_
        rw [hcall]
        exact hnames f hf
      split
      · refine progress_setPc hk _ (hw _ fun f hf => (List.mem_filter.1 hf).1)
          (Option.some_ne_none _) fun i observed hpc f hf => ?_
        cases hpc
        rw [hcall]
        exact (List.mem_filter.1 hf).1
      · exact progress_finish hk _ (hw _ fun f hf => (List.mem_filter.1 hf).1)

theorem progress_addResponseObserver (hk : s.tasks[k]? = some task) {topic : String}
    (hcall : task.call = .addResponseObserver topic) :
    Progress k task s (s.addResponseObserver k topic) := by
  have hw : Writes task.call.filters s.protocol
      (s.protocol.sendSubscribe [observerRequest topic] none) := by
    refine writes_sendSubscribe _ _ _ fun f hf => ?_
    rw [hcall]
    exact hf
  unfold Interests.addResponseObserver
  split
  · exact progress_finish hk s.index (Or.inl rfl)
  · dsimp only
    split
    · exact progress_finish hk _ (Or.inl rfl)
    · split
      · exact progress_setPc hk _ hw (Option.some_ne_none _) nofun
      · exact progress_finish hk _ hw

theorem progress_removeResponseObserver (hk : s.tasks[k]? = some task) {topic : String}
    (hcall : task.call = .removeResponseObserver topic) :
    Progress k task s (s.removeResponseObserver k topic) := by
  have hw : Writes task.call.filters s.protocol (s.protocol.sendUnsubscribe [topic]) := by
    refine writes_sendUnsubscribe _ _ fun f hf => ?_
    rw [hcall]
    exact hf
  unfold Interests.removeResponseObserver
  split
  · exact progress_finish hk s.index (Or.inl rfl)
  · dsimp only
    split
    · exact progress_finish hk _ (Or.inl rfl)
    · split
      · exact progress_setPc hk _ hw (Option.some_ne_none _) nofun
      · exact progress_finish hk _ hw

theorem progress_enter (hk : s.tasks[k]? = some task) :
    s.enter k task.call = s ∨
      s.guards.isInside k = true ∧ Progress k task s (s.enter k task.call) := by
  unfold Interests.enter
  split
  · next hinside =>
    refine Or.inr ⟨hinside, ?_⟩
    cases hcall : task.call with
    | subscribe filters autoAck queue identifier => exact progress_subscribe hk hcall
    | unsubscribe filters => exact progress_unsubscribe hk hcall
    | addResponseObserver topic => exact progress_addResponseObserver hk hcall
    | removeResponseObserver topic => exact progress_removeResponseObserver hk hcall
  · exact Or.inl rfl

theorem progress_settle (hk : s.tasks[k]? = some task) (hwithin : task.Within)
    (hpc : task.pc.exchange? ≠ none) : Progress k task s (s.settle k task.pc) := by
  have hend := progress_finish hk s.index (Or.inl rfl)
  cases heq : task.pc with
  | entering | ended =>
    rw [heq] at hpc
    exact absurd rfl hpc
  | resubscribing exchange | releasing exchange => exact hend
  | subscribing exchange newFilters =>
    unfold Interests.settle
    dsimp only
    split
    · exact hend
    · exact progress_finish hk _ (Or.inl rfl)
  | unsubscribing exchange observedFilters =>
    unfold Interests.settle
    dsimp only
    split
    · exact progress_resubscribe hk (hwithin _ _ heq)
    · exact hend
  | observing exchange topic =>
    unfold Interests.settle
    dsimp only
    split
    · exact hend
    · exact progress_finish hk _ (Or.inl rfl)

/-! ## One step -/

/-- A change of the protocol alone that writes nothing about filters. -/
theorem Guarded.protocol (h : s.Guarded) (protocol : Protocol) : Guarded { s with protocol } :=
  ⟨h.inv, h.filters, h.inside, h.within⟩

theorem Guarded.progress (h : s.Guarded) (hk : s.tasks[k]? = some task)
    (hinside : s.guards.isInside k = true) (hp : Progress k task s s') : s'.Guarded := by
  obtain ⟨pc, htasks, hown⟩ := hp.own
  obtain ⟨l, r, hsplit, hset⟩ := split_at hk
  have hmoved : SubscriptionGuards.Moved k s.guards s'.guards := by
    rcases hown with ⟨-, hg⟩ | ⟨-, -, hg⟩
    · rw [hg]
      exact SubscriptionGuards.moved_exit s.guards k
    · rw [hg]
      exact SubscriptionGuards.moved_refl k s.guards
  refine ⟨?_, ?_, fun j other hj hpc => ?_, fun other hmem => ?_⟩
  · rcases hown with ⟨-, hg⟩ | ⟨-, -, hg⟩
    · rw [hg]
      exact h.inv.exit k
    · rw [hg]
      exact h.inv
  · rw [hmoved.entries, h.filters, htasks, hset, hsplit, List.map_append, List.map_append,
      List.map_cons, List.map_cons]
  · rw [htasks] at hj
    by_cases hjk : j = k
    · subst hjk
      rw [List.getElem?_set_self (List.getElem?_eq_some_iff.1 hk).1] at hj
      obtain rfl := Option.some.inj hj
      rcases hown with ⟨rfl, -⟩ | ⟨-, -, hg⟩
      · exact absurd rfl hpc
      · rw [hg]
        exact hinside
    · rw [List.getElem?_set_ne (Ne.symm hjk)] at hj
      rw [hmoved.isInside hjk]
      exact h.inside j other hj hpc
  · rw [htasks, hset, List.mem_append, List.mem_cons] at hmem
    rcases hmem with hmem | rfl | hmem
    · exact h.within other (hsplit ▸ List.mem_append_left _ hmem)
    · rcases hown with ⟨rfl, -⟩ | ⟨-, hwithin, -⟩
      · exact nofun
      · exact hwithin
    · exact h.within other (hsplit ▸ List.mem_append_right _ (List.mem_cons_of_mem _ hmem))

/-- A call enters its guards. -/
theorem Guarded.hold (h : s.Guarded) (call : InterestCall) :
    Guarded { s with guards := s.guards.hold call.filters, tasks := s.tasks ++ [{ call }] } := by
  obtain ⟨held, htasks, hfst⟩ := SubscriptionGuards.tasks_hold s.guards call.filters
  refine ⟨h.inv.hold call.filters, ?_, fun j other hj hpc => ?_, fun other hmem => ?_⟩
  · dsimp only
    rw [htasks, List.map_append, List.map_append, h.filters, List.map_append]
    exact congrArg (_ ++ [·]) hfst
  · rcases getElem?_concat_cases hj with hj | ⟨-, rfl⟩
    · have hlt := (List.getElem?_eq_some_iff.1 hj).1
      rw [← h.length] at hlt
      show (s.guards.hold call.filters).isInside j = true
      unfold SubscriptionGuards.isInside
      rw [htasks, List.getElem?_append_left hlt]
      exact h.inside j other hj hpc
    · exact absurd rfl hpc
  · rcases List.mem_append.1 hmem with hmem | hmem
    · exact h.within other hmem
    · rw [List.mem_singleton.1 hmem]
      exact nofun

/-- A call that awaits its guards goes on in them, or leaves them. -/
theorem Guarded.moved (h : s.Guarded) (hk : s.tasks[k]? = some task) (hpc : task.pc = .entering)
    {guards : SubscriptionGuards} (hinv : guards.GuardInv)
    (hmoved : SubscriptionGuards.Moved k s.guards guards) : Guarded { s with guards } := by
  refine ⟨hinv, hmoved.entries ▸ h.filters, fun j other hj hex => ?_, h.within⟩
  have hjk : j ≠ k := by
    rintro rfl
    dsimp only at hj
    rw [hk] at hj
    rw [← Option.some.inj hj, hpc] at hex
    exact hex rfl
  show guards.isInside j = true
  rw [hmoved.isInside hjk]
  exact h.inside j other hj hex

theorem Guarded.setEnded (h : s.Guarded) (hk : s.tasks[k]? = some task) :
    (s.setPc k .ended).Guarded := by
  have htasks : (s.setPc k .ended).tasks = s.tasks.set k { task with pc := .ended } :=
    modify_of_get _ hk
  obtain ⟨l, r, hsplit, hset⟩ := split_at hk
  refine ⟨h.inv, ?_, fun j other hj hpc => ?_, fun other hmem => ?_⟩
  · rw [htasks, hset, List.map_append, List.map_cons]
    refine h.filters.trans ?_
    rw [hsplit, List.map_append, List.map_cons]
  · rw [htasks] at hj
    by_cases hjk : j = k
    · subst hjk
      rw [List.getElem?_set_self (List.getElem?_eq_some_iff.1 hk).1] at hj
      rw [← Option.some.inj hj] at hpc
      exact absurd rfl hpc
    · rw [List.getElem?_set_ne (Ne.symm hjk)] at hj
      exact h.inside j other hj hpc
  · rw [htasks] at hmem
    rcases List.mem_or_eq_of_mem_set hmem with hmem | rfl
    · exact h.within other hmem
    · exact nofun

/-- What a step does before a call goes on inside its guards. -/
structure Before (s s₁ : Interests) : Prop where
  guarded : s₁.Guarded
  written : Writes [] s.protocol s₁.protocol
  kept : ∀ (k : Nat) task, s.tasks[k]? = some task → task.pc ≠ .entering → s₁.tasks[k]? = some task
  back : ∀ (k : Nat) task, s₁.tasks[k]? = some task → task.pc.exchange? ≠ none →
    s.tasks[k]? = some task

/-- A step, and the call that goes on in it. -/
theorem step_before (h : s.Guarded) (e : InterestEvent) :
    ∃ s₁, Before s s₁ ∧ (s.step e = s₁ ∨ ∃ k task, s₁.tasks[k]? = some task ∧
      s₁.guards.isInside k = true ∧ Progress k task s₁ (s.step e) ∧
      (task.pc = .entering ∧ s₁.protocol = s.protocol ∧ s.step e = s₁.enter k task.call ∨
        task.pc.exchange? ≠ none ∧ s.step e = s₁.settle k task.pc)) := by
  have hsame : Before s s := ⟨h, Or.inl rfl, fun _ _ hget _ => hget, fun _ _ hget _ => hget⟩
  have hquiet : ∀ protocol, Writes [] s.protocol protocol → Before s { s with protocol } :=
    fun protocol hw => ⟨h.protocol protocol, hw, fun _ _ hget _ => hget, fun _ _ hget _ => hget⟩
  cases e with
  | start call =>
    have hk : ({ s with guards := s.guards.hold call.filters, tasks := s.tasks ++ [{ call }] } :
        Interests).tasks[s.tasks.length]? = some { call } := List.getElem?_concat_length ..
    refine ⟨_, ⟨h.hold call, Or.inl rfl, fun k task hget _ => ?_, fun k task hget hex => ?_⟩, ?_⟩
    · dsimp only
      rw [List.getElem?_append_left (List.getElem?_eq_some_iff.1 hget).1]
      exact hget
    · rcases getElem?_concat_cases hget with hget | ⟨-, rfl⟩
      · exact hget
      · exact absurd rfl hex
    · rcases progress_enter hk with hend | ⟨hinside, hp⟩
      · exact Or.inl hend
      · exact Or.inr ⟨_, _, hk, hinside, hp, Or.inl ⟨rfl, rfl, rfl⟩⟩
  | locked k =>
    rw [Interests.step, Interests.locked]
    split
    · next task hk =>
      split
      · next hpc =>
        have hguarded := h.moved hk hpc (h.inv.resume k) (SubscriptionGuards.moved_resume s.guards k)
        refine ⟨_, ⟨hguarded, Or.inl rfl, fun _ _ hget _ => hget, fun _ _ hget _ => hget⟩, ?_⟩
        have hk' : ({ s with guards := s.guards.resume k } : Interests).tasks[k]? = some task := hk
        rcases progress_enter hk' with hend | ⟨hinside, hp⟩
        · exact Or.inl hend
        · exact Or.inr ⟨k, task, hk, hinside, hp, Or.inl ⟨hpc, rfl, rfl⟩⟩
      · exact ⟨s, hsame, Or.inl rfl⟩
    · exact ⟨s, hsame, Or.inl rfl⟩
  | resume k written =>
    rw [Interests.step, Interests.resume]
    split
    · exact ⟨s, hsame, Or.inl rfl⟩
    · next task hk =>
      split
      · exact ⟨s, hsame, Or.inl rfl⟩
      · next i hi =>
        have hbefore := hquiet _ (Or.inl (Protocol.written_resume s.protocol i written))
        have hex : task.pc.exchange? ≠ none := by
          rw [hi]
          exact Option.some_ne_none i
        refine ⟨_, hbefore, ?_⟩
        dsimp only
        split
        · exact Or.inl rfl
        · have hk' : ({ s with protocol := s.protocol.resume i written } : Interests).tasks[k]? =
            some task := hk
          exact Or.inr ⟨k, task, hk, h.inside k task hk hex,
            progress_settle hk' (h.within task (List.mem_of_getElem? hk)) hex, Or.inr ⟨hex, rfl⟩⟩
  | cancel k =>
    rw [Interests.step, Interests.cancel]
    split
    · exact ⟨s, hsame, Or.inl rfl⟩
    · next task hk =>
      split
      · next _ hpc =>
        have hguarded := h.moved hk hpc (h.inv.cancel k) (SubscriptionGuards.moved_cancel s.guards k)
        have htasks : s.tasks.modify k (fun task => { task with pc := .ended }) =
            s.tasks.set k { task with pc := .ended } := modify_of_get _ hk
        refine ⟨_, ⟨Guarded.setEnded hguarded hk, Or.inl rfl, fun j other hj hne => ?_,
          fun j other hj hex => ?_⟩, Or.inl rfl⟩
        · show (s.tasks.modify k _)[j]? = some other
          rw [htasks, List.getElem?_set_ne]
          · exact hj
          · rintro rfl
            rw [hk] at hj
            rw [← Option.some.inj hj] at hne
            exact hne hpc
        · change (s.tasks.modify k _)[j]? = some other at hj
          rw [htasks] at hj
          by_cases hjk : j = k
          · subst hjk
            rw [List.getElem?_set_self (List.getElem?_eq_some_iff.1 hk).1] at hj
            rw [← Option.some.inj hj] at hex
            exact absurd rfl hex
          · rw [List.getElem?_set_ne (Ne.symm hjk)] at hj
            exact hj
      · exact ⟨_, hquiet _ (Or.inl (Protocol.written_cancel s.protocol _)), Or.inl rfl⟩
      · exact ⟨s, hsame, Or.inl rfl⟩
  | background e =>
    rw [Interests.step]
    split
    · next he => exact ⟨_, hquiet _ (writes_background he), Or.inl rfl⟩
    · exact ⟨s, hsame, Or.inl rfl⟩

theorem Guarded.step (h : s.Guarded) (e : InterestEvent) : (s.step e).Guarded := by
  obtain ⟨s₁, hbefore, hstep | ⟨k, task, hk, hinside, hp, -⟩⟩ := step_before h e
  · rw [hstep]
    exact hbefore.guarded
  · exact hbefore.guarded.progress hk hinside hp

theorem guarded_reach {version : Version} {maxPublishQos : QoS} {strippedPrefixes : List String}
    (h : Reach step anyStep (fresh version maxPublishQos strippedPrefixes) s) : s.Guarded :=
  Reach.invariant (I := Guarded) h (guarded_fresh version maxPublishQos strippedPrefixes)
    fun _ e hs _ => hs.step e

/-- A call that has ended stays so. -/
theorem ended_step (h : s.Guarded) (hk : s.tasks[k]? = some task) (hpc : task.pc = .ended)
    (e : InterestEvent) : (s.step e).tasks[k]? = some task := by
  obtain ⟨s₁, hbefore, hstep⟩ := step_before h e
  have hk₁ := hbefore.kept k task hk (by rw [hpc]; nofun)
  rcases hstep with hstep | ⟨j, other, hj, -, hp, hgoes⟩
  · rw [hstep]
    exact hk₁
  · obtain ⟨pc, htasks, -⟩ := hp.own
    rw [htasks, List.getElem?_set_ne]
    · exact hk₁
    · rintro rfl
      rw [hk₁] at hj
      rw [← Option.some.inj hj, hpc] at hgoes
      rcases hgoes with ⟨hentering, -⟩ | ⟨hex, -⟩
      · cases hentering
      · exact hex rfl

end Interests

end Zmqtt
