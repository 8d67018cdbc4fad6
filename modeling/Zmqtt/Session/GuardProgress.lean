/-
  `_SubscriptionGuards` over whole runs: guards are exclusive, a guard is in `_guards` exactly
  while tasks are registered with it, and no tasks wait for one another in a cycle (`Sound`).

  A lock is held by a task that has taken it or was just handed it, and its queue names the
  tasks that wait for it (`Queue`). As `hold` takes the locks in the order of the filters, a
  task that waits holds only locks of smaller filters than the one it waits for.
-/
import Mathlib.Data.String.Basic
import Zmqtt.Session.GuardExclusion
import Zmqtt.Lib.Machine

namespace Zmqtt

/-! ## One lock -/

namespace SubscriptionGuard

/-- The lock against the tasks: `has` those that have taken it, `wants` those whose next lock
    it is. -/
structure Queue (guard : SubscriptionGuard) (has wants : Nat → Prop) : Prop where
  holder : ∀ k, guard.holder = some k → has k ∨ wants k
  waiter : ∀ k ∈ guard.waiters, wants k
  nodup : (guard.holder.toList ++ guard.waiters).Nodup
  free : guard.holder = none → guard.waiters = []
  queued : ∀ k, wants k → guard.holder = some k ∨ k ∈ guard.waiters

variable {guard : SubscriptionGuard} {has has' wants wants' : Nat → Prop} {k : Nat}

theorem Queue.congr (h : guard.Queue has wants) (hhas : ∀ j, has j → has' j)
    (hwants : ∀ j, wants j ↔ wants' j) : guard.Queue has' wants' := by
  refine ⟨fun j hj => ?_, fun j hj => (hwants j).1 (h.waiter j hj), h.nodup, h.free, fun j hj => ?_⟩
  · rcases h.holder j hj with hj | hj
    · exact Or.inl (hhas j hj)
    · exact Or.inr ((hwants j).1 hj)
  · exact h.queued j ((hwants j).2 hj)

/-- `users` is not part of the lock. -/
theorem Queue.users (h : guard.Queue has wants) (users : Nat) :
    { guard with users }.Queue has wants :=
  ⟨h.holder, h.waiter, h.nodup, h.free, h.queued⟩

theorem Queue.not_mem (h : guard.Queue has wants) (hk : guard.holder = some k) : k ∉ guard.waiters := by
  have hnodup := h.nodup
  rw [hk, Option.toList_some, List.singleton_append, List.nodup_cons] at hnodup
  exact hnodup.1

/-- A new guard. -/
theorem queue_new (users : Nat) (hwants : ∀ j, ¬wants j) : { users : SubscriptionGuard }.Queue has wants :=
  ⟨nofun, nofun, List.nodup_nil, fun _ => rfl, fun j hj => absurd hj (hwants j)⟩

/-- Task `k` takes a free lock. -/
theorem Queue.take (h : guard.Queue has wants) (hfree : guard.holder = none) (k : Nat) :
    { guard with holder := some k }.Queue (fun j => has j ∨ j = k) wants := by
  have hempty := h.free hfree
  refine ⟨fun j hj => ?_, h.waiter, ?_, nofun, fun j hj => ?_⟩
  · exact Or.inl (Or.inr (Option.some.inj hj).symm)
  · show (_ ++ guard.waiters).Nodup
    rw [hempty]
    exact List.nodup_singleton k
  · rcases h.queued j hj with hj | hj
    · rw [hfree] at hj
      cases hj
    · rw [hempty] at hj
      cases hj

/-- Task `k` queues for a lock that is held. -/
theorem Queue.wait (h : guard.Queue has wants) (hheld : guard.holder ≠ none) (hhas : ¬has k)
    (hwants : ¬wants k) :
    { guard with waiters := guard.waiters ++ [k] }.Queue has fun j => wants j ∨ j = k := by
  refine ⟨fun j hj => ?_, fun j hj => ?_, ?_, fun hnone => absurd hnone hheld, fun j hj => ?_⟩
  · exact (h.holder j hj).imp id Or.inl
  · rcases List.mem_append.1 hj with hj | hj
    · exact Or.inl (h.waiter j hj)
    · exact Or.inr (List.mem_singleton.1 hj)
  · show (guard.holder.toList ++ (guard.waiters ++ [k])).Nodup
    rw [← List.append_assoc, ← List.concat_eq_append, List.nodup_concat]
    refine ⟨fun hmem => ?_, h.nodup⟩
    rcases List.mem_append.1 hmem with hk | hk
    · exact (h.holder k (Option.mem_toList.1 hk)).elim hhas hwants
    · exact hwants (h.waiter k hk)
  · rcases hj with hj | rfl
    · exact (h.queued j hj).imp id (List.mem_append_left _)
    · exact Or.inr (List.mem_append_right _ List.mem_cons_self)

/-- Task `k` takes the lock that was handed to it. -/
theorem Queue.handed (h : guard.Queue has wants) (hk : guard.holder = some k) :
    guard.Queue (fun j => has j ∨ j = k) fun j => wants j ∧ j ≠ k := by
  refine ⟨fun j hj => ?_, fun j hj => ⟨h.waiter j hj, ?_⟩, h.nodup, h.free, fun j hj => h.queued j hj.1⟩
  · rw [hk] at hj
    exact Or.inl (Or.inr (Option.some.inj hj).symm)
  · rintro rfl
    exact h.not_mem hk hj

/-- The holder releases the lock to the first task that waits for it. -/
theorem Queue.release (h : guard.Queue has wants) (hk : guard.holder = some k) :
    guard.release.Queue has' fun j => wants j ∧ j ≠ k := by
  have hne : ∀ j ∈ guard.waiters, j ≠ k := by
    rintro j hj rfl
    exact h.not_mem hk hj
  have hnodup : guard.waiters.Nodup := (List.nodup_append.1 h.nodup).2.1
  refine ⟨fun j hj => ?_, fun j hj => ?_, ?_, fun hnone => ?_, fun j hj => ?_⟩
  · have hmem := List.mem_of_mem_head? hj
    exact Or.inr ⟨h.waiter j hmem, hne j hmem⟩
  · have hmem := List.mem_of_mem_tail hj
    exact ⟨h.waiter j hmem, hne j hmem⟩
  · show (guard.waiters.head?.toList ++ guard.waiters.tail).Nodup
    cases hw : guard.waiters with
    | nil => exact List.nodup_nil
    | cons j rest =>
      rw [hw] at hnodup
      exact hnodup
  · show guard.waiters.tail = []
    rw [List.head?_eq_none_iff.1 hnone]
    rfl
  · rcases h.queued j hj.1 with hj' | hj'
    · rw [hk] at hj'
      exact absurd (Option.some.inj hj').symm hj.2
    · show guard.waiters.head? = some j ∨ j ∈ guard.waiters.tail
      cases hw : guard.waiters with
      | nil =>
        rw [hw] at hj'
        cases hj'
      | cons i rest =>
        rw [hw] at hj'
        rcases List.mem_cons.1 hj' with rfl | hj'
        · exact Or.inl rfl
        · exact Or.inr hj'

/-- Task `k` gives up waiting. -/
theorem Queue.withdraw (h : guard.Queue has wants) (k : Nat) :
    (guard.withdraw k).Queue has fun j => wants j ∧ j ≠ k := by
  unfold SubscriptionGuard.withdraw
  split
  · next hk => exact h.release hk
  · next hk =>
    have hnodup := List.nodup_append.1 h.nodup
    refine ⟨fun j hj => ?_, fun j hj => ?_, ?_, fun hnone => ?_, fun j hj => ?_⟩
    · refine (h.holder j hj).imp id fun hj' => ⟨hj', ?_⟩
      rintro rfl
      exact hk hj
    · obtain ⟨hne, hmem⟩ := (hnodup.2.1.mem_erase_iff).1 hj
      exact ⟨h.waiter j hmem, hne⟩
    · refine h.nodup.sublist ?_
      exact (List.Sublist.refl _).append List.erase_sublist
    · show guard.waiters.erase k = []
      rw [h.free hnone]
      rfl
    · exact (h.queued j hj.1).imp id fun hj' => (hnodup.2.1.mem_erase_iff).2 ⟨hj.2, hj'⟩

end SubscriptionGuard

/-! ## All locks -/

/-- The locks that a task has taken, and the one it waits for. -/
structure Place where
  taken : List Nat := []
  next : Option Nat := none

def HoldTask.place (task : HoldTask) : Place :=
  match task.stage with
  | .waiting =>
      { taken := (task.entries.take task.acquired).map Prod.snd,
        next := (task.entries[task.acquired]?).map Prod.snd }
  | .inside => { taken := (task.entries.take task.acquired).map Prod.snd }
  | .left => {}

def placeOf (tasks : List HoldTask) (k : Nat) : Place := (tasks[k]?).elim {} HoldTask.place

section Places

variable {tasks : List HoldTask} {places : Nat → Place} {place : Place} {k o : Nat}

theorem placeOf_of_get {task : HoldTask} (hk : tasks[k]? = some task) : placeOf tasks k = task.place := by
  unfold placeOf
  rw [hk]
  rfl

theorem placeOf_set (hk : k < tasks.length) (task : HoldTask) :
    placeOf (tasks.set k task) = Function.update (placeOf tasks) k task.place := by
  funext j
  by_cases hj : j = k
  · subst hj
    rw [Function.update_self]
    exact placeOf_of_get (List.getElem?_set_self hk)
  · rw [Function.update_of_ne hj]
    unfold placeOf
    rw [List.getElem?_set_ne (Ne.symm hj)]

theorem placeOf_concat (tasks : List HoldTask) (task : HoldTask) :
    placeOf (tasks ++ [task]) = Function.update (placeOf tasks) tasks.length task.place := by
  funext j
  by_cases hj : j = tasks.length
  · subst hj
    rw [Function.update_self]
    exact placeOf_of_get List.getElem?_concat_length
  · rw [Function.update_of_ne hj]
    unfold placeOf
    rcases Nat.lt_or_ge j tasks.length with hlt | hge
    · rw [List.getElem?_append_left hlt]
    · rw [List.getElem?_eq_none hge, List.getElem?_eq_none]
      rw [List.length_append, List.length_singleton]
      omega

theorem taken_update (h : o ∈ (places k).taken → o ∈ place.taken) (j : Nat)
    (hj : o ∈ (places j).taken) : o ∈ (Function.update places k place j).taken := by
  by_cases hjk : j = k
  · subst hjk
    rw [Function.update_self]
    exact h hj
  · rw [Function.update_of_ne hjk]
    exact hj

theorem taken_update_self (h : ∀ o' ∈ (places k).taken, o' ∈ place.taken) (hself : o ∈ place.taken)
    (j : Nat) (hj : o ∈ (places j).taken ∨ j = k) : o ∈ (Function.update places k place j).taken := by
  rcases hj with hj | rfl
  · exact taken_update (h o) j hj
  · rw [Function.update_self]
    exact hself

theorem next_update_none (hnone : place.next = none) (j : Nat) :
    (places j).next = some o ∧ j ≠ k ↔ (Function.update places k place j).next = some o := by
  by_cases hj : j = k
  · subst hj
    rw [Function.update_self, hnone]
    exact ⟨fun h => absurd rfl h.2, nofun⟩
  · rw [Function.update_of_ne hj]
    exact ⟨fun h => h.1, fun h => ⟨h, hj⟩⟩

theorem next_update_some (hsome : place.next = some o) (j : Nat) :
    (places j).next = some o ∨ j = k ↔ (Function.update places k place j).next = some o := by
  by_cases hj : j = k
  · subst hj
    rw [Function.update_self]
    exact ⟨fun _ => hsome, fun _ => Or.inr rfl⟩
  · rw [Function.update_of_ne hj]
    exact ⟨fun h => h.resolve_right hj, Or.inl⟩

end Places

/-- Every lock against the tasks. -/
structure Queues (objects : List SubscriptionGuard) (places : Nat → Place) : Prop where
  queue : ∀ (o : Nat) guard, objects[o]? = some guard →
    guard.Queue (fun k => o ∈ (places k).taken) fun k => (places k).next = some o
  bound : ∀ k o, (places k).next = some o → o < objects.length

section Queues

variable {objects : List SubscriptionGuard} {places : Nat → Place} {place : Place} {k o : Nat}
  {guard : SubscriptionGuard}

/-- Task `k` comes to `place` by what it does with the lock of object `o`. -/
theorem Queues.modify (h : Queues objects places) (change : SubscriptionGuard → SubscriptionGuard)
    (ho : objects[o]? = some guard)
    (hself : (change guard).Queue (fun j => o ∈ (Function.update places k place j).taken)
      fun j => (Function.update places k place j).next = some o)
    (htaken : ∀ o', o' ≠ o → o' ∈ (places k).taken → o' ∈ place.taken)
    (hnext : ∀ o', o' ≠ o → ((places k).next = some o' ↔ place.next = some o')) :
    Queues (objects.modify o change) (Function.update places k place) := by
  refine ⟨fun o' guard' ho' => ?_, fun j o' hj => ?_⟩
  · rw [List.getElem?_modify] at ho'
    obtain ⟨old, hold, rfl⟩ := Option.map_eq_some_iff.1 ho'
    by_cases hne : o = o'
    · subst hne
      obtain rfl := Option.some.inj (ho.symm.trans hold)
      rw [if_pos rfl]
      exact hself
    · rw [if_neg hne]
      refine (h.queue o' old hold).congr (taken_update (htaken o' (Ne.symm hne))) fun j => ?_
      by_cases hjk : j = k
      · subst hjk
        rw [Function.update_self]
        exact hnext o' (Ne.symm hne)
      · rw [Function.update_of_ne hjk]
  · rw [List.length_modify]
    by_cases hoo : o' = o
    · exact hoo ▸ (List.getElem?_eq_some_iff.1 ho).1
    · by_cases hjk : j = k
      · subst hjk
        rw [Function.update_self] at hj
        exact h.bound j o' ((hnext o' hoo).2 hj)
      · rw [Function.update_of_ne hjk] at hj
        exact h.bound j o' hj

theorem Queues.take (h : Queues objects places) (hnext : (places k).next = none)
    (ho : objects[o]? = some guard) (hfree : guard.holder = none) :
    Queues (objects.modify o fun guard => { guard with holder := some k })
      (Function.update places k { taken := (places k).taken ++ [o] }) := by
  have hqueue := h.queue o guard ho
  refine h.modify _ ho ?_ (fun o' _ => List.mem_append_left _) fun o' _ => by rw [hnext]
  have hnone : ∀ j, ¬(places j).next = some o := by
    intro j hj
    rcases hqueue.queued j hj with hj | hj
    · rw [hfree] at hj
      cases hj
    · rw [hqueue.free hfree] at hj
      cases hj
  refine (hqueue.take hfree k).congr (taken_update_self (fun _ => List.mem_append_left _)
    (List.mem_append_right _ List.mem_cons_self)) fun j => ?_
  rw [← next_update_none rfl]
  exact ⟨fun hj => absurd hj (hnone j), fun hj => hj.1⟩

theorem Queues.wait (h : Queues objects places) (hnext : (places k).next = none)
    (htaken : o ∉ (places k).taken) (ho : objects[o]? = some guard) (hheld : guard.holder ≠ none) :
    Queues (objects.modify o fun guard => { guard with waiters := guard.waiters ++ [k] })
      (Function.update places k { taken := (places k).taken, next := some o }) := by
  refine h.modify _ ho ?_ (fun _ _ => id) fun o' hne => ?_
  · refine ((h.queue o guard ho).wait hheld htaken ?_).congr (taken_update id) (next_update_some rfl)
    rw [hnext]
    exact nofun
  · rw [hnext]
    exact ⟨nofun, fun heq => absurd (Option.some.inj heq).symm hne⟩

theorem next_of_ne {place : Place} (hnext : place.next = some o) (o' : Nat) (hne : o' ≠ o) :
    place.next = some o' ↔ none = some o' := by
  rw [hnext]
  exact ⟨fun heq => absurd (Option.some.inj heq).symm hne, nofun⟩

theorem Queues.handed (h : Queues objects places) (hnext : (places k).next = some o)
    (ho : objects[o]? = some guard) (hk : guard.holder = some k) :
    Queues objects (Function.update places k { taken := (places k).taken ++ [o] }) := by
  rw [← List.modify_id o objects]
  refine h.modify _ ho ?_ (fun o' _ => List.mem_append_left _) (next_of_ne hnext)
  exact ((h.queue o guard ho).handed hk).congr (taken_update_self (fun _ => List.mem_append_left _)
    (List.mem_append_right _ List.mem_cons_self)) (next_update_none rfl)

theorem Queues.release {rest : List Nat} (h : Queues objects places) (hnext : (places k).next = none)
    (htaken : ∀ o' ∈ (places k).taken, o' = o ∨ o' ∈ rest) (ho : objects[o]? = some guard)
    (hk : guard.holder = some k) :
    Queues (objects.modify o SubscriptionGuard.release) (Function.update places k { taken := rest }) := by
  refine h.modify _ ho ?_ (fun o' hne hmem => (htaken o' hmem).resolve_left hne) fun o' _ => by rw [hnext]
  exact (h.queue o guard ho).release hk |>.congr (fun _ => id) (next_update_none rfl)

theorem Queues.withdraw (h : Queues objects places) (hnext : (places k).next = some o) :
    Queues (objects.modify o fun guard => guard.withdraw k)
      (Function.update places k { taken := (places k).taken }) := by
  have ho := List.getElem?_eq_getElem (h.bound k o hnext)
  refine h.modify _ ho ?_ (fun _ _ => id) (next_of_ne hnext)
  exact ((h.queue o _ ho).withdraw k).congr (taken_update id) (next_update_none rfl)

/-- A registration is counted or taken back. -/
theorem Queues.users (h : Queues objects places) (o : Nat) (users : Nat → Nat) :
    Queues (objects.modify o fun guard => { guard with users := users guard.users }) places := by
  refine ⟨fun o' guard ho' => ?_, fun j o' hj => ?_⟩
  · rw [List.getElem?_modify] at ho'
    obtain ⟨old, hold, rfl⟩ := Option.map_eq_some_iff.1 ho'
    split
    · exact (h.queue o' old hold).users _
    · exact h.queue o' old hold
  · rw [List.length_modify]
    exact h.bound j o' hj

theorem Queues.concat (h : Queues objects places) (users : Nat) :
    Queues (objects ++ [{ users := users }]) places := by
  refine ⟨fun o guard ho => ?_, fun j o hj => ?_⟩
  · rcases getElem?_concat_cases ho with ho | ⟨rfl, rfl⟩
    · exact h.queue o guard ho
    · exact SubscriptionGuard.queue_new users fun j hj => Nat.lt_irrefl _ (h.bound j _ hj)
  · rw [List.length_append, List.length_singleton]
    exact Nat.lt_succ_of_lt (h.bound j o hj)

end Queues

/-! ## The operations -/

namespace SubscriptionGuards

variable {g : SubscriptionGuards} {places : Nat → Place} {k : Nat} {task : HoldTask}

theorem queues_registerAll (filters : List String) (h : Queues g.objects places) :
    Queues (g.registerAll filters).1.objects places := by
  induction filters generalizing g with
  | nil => exact h
  | cons filter filters ih =>
    refine @ih (g.register filter).1 ?_
    unfold SubscriptionGuards.register
    split
    · exact h.users _ fun users => users + 1
    · exact h.concat 1

theorem queues_deregisterAll (entries : List (String × Nat)) (h : Queues g.objects places) :
    Queues (entries.foldl deregister g).objects places := by
  induction entries generalizing g with
  | nil => exact h
  | cons e entries ih =>
    have hone := h.users e.2 fun users => users - 1
    refine @ih (g.deregister e) ?_
    unfold SubscriptionGuards.deregister
    dsimp only
    split
    · exact hone
    · exact hone

/-- The locks of task `k` go to the tasks that wait for them. -/
theorem queues_releaseAll (held : List (String × Nat)) (hheld : ∀ e ∈ held, g.HolderIs e.2 k)
    (hnodup : (held.map Prod.snd).Nodup) (h : Queues g.objects places) (hnext : (places k).next = none)
    (htaken : ∀ o ∈ (places k).taken, o ∈ held.map Prod.snd) :
    Queues (held.foldl (fun g entry => g.modifyGuard entry.2 SubscriptionGuard.release) g).objects
      (Function.update places k {}) := by
  induction held generalizing g places with
  | nil =>
    have hempty : places k = {} := by
      cases hplace : places k with
      | mk taken next =>
        rw [hplace] at hnext htaken
        have hnil : taken = [] :=
          List.eq_nil_iff_forall_not_mem.2 fun o ho => List.not_mem_nil (htaken o ho)
        rw [show next = none from hnext, hnil]
    rw [← hempty, Function.update_eq_self]
    exact h
  | cons e held ih =>
    rw [List.map_cons, List.nodup_cons] at hnodup
    obtain ⟨guard, ho, hk⟩ := hheld e List.mem_cons_self
    have hone : Queues (g.modifyGuard e.2 SubscriptionGuard.release).objects
        (Function.update places k { taken := held.map Prod.snd }) :=
      h.release hnext (fun o' ho' => List.mem_cons.1 (htaken o' ho')) ho hk
    have hothers : ∀ e' ∈ held, (g.modifyGuard e.2 SubscriptionGuard.release).HolderIs e'.2 k := by
      intro e' he'
      refine holderIs_modifyGuard (fun heq => hnodup.1 ?_) (hheld e' (List.mem_cons_of_mem _ he'))
      rw [heq]
      exact List.mem_map_of_mem he'
    have hrest := @ih (g.modifyGuard e.2 SubscriptionGuard.release) _ hothers hnodup.2 hone
      (by rw [Function.update_self]) (by rw [Function.update_self]; exact fun _ => id)
    rw [Function.update_idem] at hrest
    exact hrest

/-- What the loop over the locks leaves task `k` with. -/
theorem queues_acquireFrom {entries : List (String × Nat)} (hnodup : (entries.map Prod.snd).Nodup)
    (todo : List (String × Nat)) (acquired : Nat) (htodo : entries.drop acquired = todo)
    (hbound : ∀ e ∈ todo, e.2 < g.objects.length)
    (h : Queues g.objects
      (Function.update places k { taken := (entries.take acquired).map Prod.snd })) :
    let result := g.acquireFrom k todo acquired
    Queues result.1.objects (Function.update places k
      ({ entries, acquired := result.2.1, stage := result.2.2 } : HoldTask).place) ∧
      (result.2.2 = .waiting → result.2.1 < entries.length) := by
  induction todo generalizing g acquired with
  | nil => exact ⟨h, nofun⟩
  | cons e todo ih =>
    obtain ⟨filter, o⟩ := e
    have hentry : entries[acquired]? = some (filter, o) := by
      rw [← List.head?_drop, htodo]
      rfl
    have hlt := (List.getElem?_eq_some_iff.1 hentry).1
    have hnext : (Function.update places k
        { taken := (entries.take acquired).map Prod.snd } k).next = none := by
      rw [Function.update_self]
    unfold acquireFrom
    split
    · next ho =>
      have hin := hbound (filter, o) List.mem_cons_self
      rw [List.getElem?_eq_none_iff] at ho
      exact absurd hin (Nat.not_lt.2 ho)
    · next guard ho =>
      split
      · next hfree =>
        have htake := h.take hnext ho (Option.isNone_iff_eq_none.1 hfree)
        rw [Function.update_idem, Function.update_self] at htake
        refine @ih (g.modifyGuard o fun guard => { guard with holder := some k }) (acquired + 1) ?_
          (fun e he => ?_) ?_
        · rw [← List.tail_drop, htodo]
          rfl
        · rw [length_modifyGuard]
          exact hbound e (List.mem_cons_of_mem _ he)
        · rw [List.take_add_one, hentry, List.map_append]
          exact htake
      · next hheld =>
        refine ⟨?_, fun _ => hlt⟩
        have hwait := h.wait hnext ?_ ho fun hnone => hheld (Option.isNone_iff_eq_none.2 hnone)
        · rw [Function.update_idem, Function.update_self] at hwait
          unfold HoldTask.place
          dsimp only
          rw [hentry]
          exact hwait
        · -- no object is among the entries twice
          rw [Function.update_self]
          intro hmem
          rw [← List.take_append_drop acquired entries, List.map_append, htodo] at hnodup
          exact (List.nodup_append.1 hnodup).2.2 o hmem o List.mem_cons_self rfl

/-- The locks and queues fit the tasks, and a task that waits has a lock to wait for. -/
structure Locked (g : SubscriptionGuards) : Prop where
  queues : Queues g.objects (placeOf g.tasks)
  pending : ∀ (k : Nat) task, g.tasks[k]? = some task → task.stage = .waiting →
    task.acquired < task.entries.length

/-- Task `k` is replaced in a table whose other tasks are as they should be. -/
theorem locked_set {objects : List SubscriptionGuard} {tasks : List HoldTask} {task' : HoldTask}
    (hk : k < tasks.length) (hqueues : Queues objects (Function.update (placeOf tasks) k task'.place))
    (hothers : ∀ (j : Nat) other, j ≠ k → tasks[j]? = some other → other.stage = .waiting →
      other.acquired < other.entries.length)
    (hself : task'.stage = .waiting → task'.acquired < task'.entries.length)
    {g : SubscriptionGuards} (hobjects : g.objects = objects) (htasks : g.tasks = tasks.set k task') :
    g.Locked := by
  refine ⟨?_, fun j other hj hwaiting => ?_⟩
  · rw [hobjects, htasks, placeOf_set hk]
    exact hqueues
  · rw [htasks] at hj
    by_cases hjk : j = k
    · subst hjk
      rw [List.getElem?_set_self hk] at hj
      obtain rfl := Option.some.inj hj
      exact hself hwaiting
    · rw [List.getElem?_set_ne (Ne.symm hjk)] at hj
      exact hothers j other hjk hj hwaiting

theorem Locked.advance (hk : k < g.tasks.length) (hnodup : (task.entries.map Prod.snd).Nodup)
    (hbound : ∀ e ∈ task.entries, e.2 < g.objects.length)
    (hothers : ∀ (j : Nat) other, j ≠ k → g.tasks[j]? = some other → other.stage = .waiting →
      other.acquired < other.entries.length)
    (h : Queues g.objects (Function.update (placeOf g.tasks) k
      { taken := (task.entries.take task.acquired).map Prod.snd })) : (g.advance k task).Locked := by
  have hacquire := queues_acquireFrom hnodup (task.entries.drop task.acquired) task.acquired rfl
    (fun e he => hbound e (List.mem_of_mem_drop he)) h
  have hframe := acquired_acquireFrom g k (task.entries.drop task.acquired) task.acquired
  refine locked_set hk hacquire.1 hothers hacquire.2 rfl ?_
  unfold SubscriptionGuards.advance
  dsimp only
  rw [hframe.tasks]

theorem Locked.leave (hk : g.tasks[k]? = some task)
    (htaken : ∀ e ∈ task.entries.take task.acquired, g.HolderIs e.2 k)
    (hnodup : (task.entries.map Prod.snd).Nodup)
    (hothers : ∀ (j : Nat) other, j ≠ k → g.tasks[j]? = some other → other.stage = .waiting →
      other.acquired < other.entries.length)
    (h : Queues g.objects (Function.update (placeOf g.tasks) k
      { taken := (task.entries.take task.acquired).map Prod.snd })) : (g.leave k task).Locked := by
  have hrelease := queues_releaseAll (task.entries.take task.acquired).reverse
    (fun e he => htaken e (List.mem_reverse.1 he)) ?_ h (by rw [Function.update_self]) ?_
  · rw [Function.update_idem] at hrelease
    have hlt := (List.getElem?_eq_some_iff.1 hk).1
    exact locked_set hlt (queues_deregisterAll task.entries hrelease) hothers (fun hs => by cases hs) rfl
      (tasks_leave g k task)
  · rw [List.map_reverse, List.nodup_reverse, List.map_take]
    exact hnodup.sublist (List.take_sublist _ _)
  · rw [Function.update_self, List.map_reverse]
    exact fun o ho => List.mem_reverse.2 ho

/-- The objects of a task that has not left. -/
theorem GuardInv.entries_lt (h : g.GuardInv) (hk : g.tasks[k]? = some task) (hne : task.stage ≠ .left) :
    ∀ e ∈ task.entries, e.2 < g.objects.length :=
  fun e he => h.counted.bound _ _ (h.counted.live e (mem_registrations hk hne he))

theorem GuardInv.nodup_objects (h : g.GuardInv) (hk : g.tasks[k]? = some task) (hne : task.stage ≠ .left) :
    (task.entries.map Prod.snd).Nodup :=
  h.counted.nodup_objects (fun _ he => mem_registrations hk hne he) (h.held k task hk hne).nodup

theorem placeOf_of_waiting (hk : g.tasks[k]? = some task) (hstage : task.stage = .waiting)
    {entry : String × Nat} (hentry : task.entries[task.acquired]? = some entry) : placeOf g.tasks k =
      { taken := (task.entries.take task.acquired).map Prod.snd, next := some entry.2 } := by
  rw [placeOf_of_get hk]
  unfold HoldTask.place
  rw [hstage]
  dsimp only
  rw [hentry]
  rfl

theorem place_of_inside (hstage : task.stage = .inside) : task.place =
    { taken := (task.entries.take task.acquired).map Prod.snd } := by
  unfold HoldTask.place
  rw [hstage]

theorem Locked.hold (h : g.Locked) (hinv : g.GuardInv) (filters : List String) :
    (g.hold filters).Locked := by
  obtain ⟨-, htasks⟩ := registerAll_frame g (sortedSet filters)
  have hqueues := queues_registerAll (sortedSet filters) h.queues
  have hcounted := Counted.registerAll (sortedSet filters) hinv.counted
  have hnodup : ((g.registerAll (sortedSet filters)).2.map Prod.snd).Nodup := by
    refine hcounted.nodup_objects (fun e he => List.mem_append_left _ he) ?_
    rw [map_fst_registerAll]
    exact nodup_sortedSet filters
  have hnew : placeOf g.tasks g.tasks.length = {} := by
    unfold placeOf
    rw [List.getElem?_eq_none (Nat.le_refl _)]
    rfl
  unfold SubscriptionGuards.hold
  dsimp only
  refine Locked.advance ?_ hnodup (fun e he => ?_) (fun j other hj hget => ?_) ?_
  · rw [htasks, List.length_append, List.length_singleton]
    exact Nat.lt_succ_self _
  · exact hcounted.bound _ _ (hcounted.live e (List.mem_append_left _ he))
  · rw [htasks] at hget
    rcases getElem?_concat_cases hget with hget | ⟨rfl, -⟩
    · exact h.pending j other hget
    · exact absurd rfl hj
  · -- the new task has taken nothing yet
    rw [htasks, placeOf_concat, Function.update_idem]
    show Queues _ (Function.update (placeOf g.tasks) g.tasks.length {})
    rw [← hnew, Function.update_eq_self]
    exact hqueues

theorem Locked.resume (h : g.Locked) (hinv : g.GuardInv) (k : Nat) : (g.resume k).Locked := by
  obtain hsame | ⟨task, filter, o, hk, hstage, hentry, hholder, hresume⟩ := g.resume_cases k
  · rw [hsame]
    exact h
  · have hne := HoldTask.stays_of_waiting hstage
    have hplace := placeOf_of_waiting hk hstage hentry
    obtain ⟨guard, ho, hself⟩ := hholder
    have hqueues := h.queues.handed (by rw [hplace]) ho hself
    have hnodup := hinv.nodup_objects hk hne
    have hlt := hinv.entries_lt hk hne
    rw [hresume]
    refine Locked.advance (List.getElem?_eq_some_iff.1 hk).1 hnodup hlt
      (fun j other _ => h.pending j other) ?_
    dsimp only
    rw [hplace] at hqueues
    rw [List.take_add_one, hentry, List.map_append]
    exact hqueues

theorem Locked.exit (h : g.Locked) (hinv : g.GuardInv) (k : Nat) : (g.exit k).Locked := by
  obtain hsame | ⟨task, hk, hstage, hexit⟩ := g.exit_cases k
  · rw [hsame]
    exact h
  · have hne := HoldTask.stays_of_inside hstage
    rw [hexit]
    refine Locked.leave hk (hinv.held k task hk hne).taken (hinv.nodup_objects hk hne)
      (fun j other _ => h.pending j other) ?_
    rw [← place_of_inside hstage, ← placeOf_of_get hk, Function.update_eq_self]
    exact h.queues

theorem Locked.cancel (h : g.Locked) (hinv : g.GuardInv) (k : Nat) : (g.cancel k).Locked := by
  obtain hsame | ⟨task, filter, o, hk, hstage, hentry, hcancel⟩ := g.cancel_cases k
  · rw [hsame]
    exact h
  · have hne := HoldTask.stays_of_waiting hstage
    have hplace := placeOf_of_waiting hk hstage hentry
    have hqueues := h.queues.withdraw (by rw [hplace])
    rw [hplace] at hqueues
    have hother := hinv.next_not_taken hk hne hentry
    rw [hcancel]
    exact Locked.leave (g := g.modifyGuard o fun guard => guard.withdraw k) hk
      (fun e he => holderIs_modifyGuard (hother e he) ((hinv.held k task hk hne).taken e he))
      (hinv.nodup_objects hk hne) (fun j other _ => h.pending j other) hqueues

/-! ## Guards in use -/

/-- Every guard in `_guards` has a registration. -/
def Used (g : SubscriptionGuards) (entries : List (String × Nat)) : Prop :=
  ∀ f o, g.guards.get? f = some o → (f, o) ∈ entries

variable {entries registered : List (String × Nat)}

theorem Used.registerAll (filters : List String) (h : g.Used entries) :
    (g.registerAll filters).1.Used ((g.registerAll filters).2 ++ entries) := by
  induction filters generalizing g entries with
  | nil => exact h
  | cons filter filters ih =>
    have hone : (g.register filter).1.Used ((filter, (g.register filter).2) :: entries) := by
      unfold SubscriptionGuards.register
      split
      · exact fun f o ho => List.mem_cons_of_mem _ (h f o ho)
      · intro f o ho
        dsimp only at ho
        rw [Dict.get?_set] at ho
        split at ho
        · next he =>
          rw [← he, ← Option.some.inj ho]
          exact List.mem_cons_self
        · exact List.mem_cons_of_mem _ (h f o ho)
    exact fun f o ho => List.perm_middle.mem_iff.1 (ih hone f o ho)

theorem Used.deregister {e : String × Nat} (hcounted : g.Counted (e :: entries))
    (h : g.Used (e :: entries)) : (g.deregister e).Used entries := by
  have hlive := hcounted.live e List.mem_cons_self
  intro f o ho
  rw [guards_deregister hcounted] at ho
  split at ho
  · rw [Dict.get?_pop] at ho
    split at ho
    · cases ho
    · next hne =>
      refine (List.mem_cons.1 (h f o ho)).resolve_left fun heq => hne ?_
      rw [← heq]
  · next hleft =>
    rcases List.mem_cons.1 (h f o ho) with rfl | hmem
    · -- somebody else has the object, and its filter
      obtain ⟨e', he', heq⟩ := List.mem_map.1 (List.count_pos_iff.1 (Nat.pos_of_ne_zero hleft))
      have hlive' := hcounted.live e' (List.mem_cons_of_mem _ he')
      rw [heq] at hlive'
      have hfilter : f = e'.1 := hcounted.inj _ _ _ hlive hlive'
      rw [show (f, o) = e' from Prod.ext hfilter heq.symm]
      exact he'
    · exact hmem

theorem Used.deregisterAll (hcounted : g.Counted (registered ++ entries))
    (h : g.Used (registered ++ entries)) : (registered.foldl SubscriptionGuards.deregister g).Used entries := by
  induction registered generalizing g with
  | nil => exact h
  | cons e registered ih => exact ih (Counted.deregister hcounted) (Used.deregister hcounted h)

theorem Used.advance (h : g.Used g.registrations)
    (hk : (g.tasks[k]?).map HoldTask.registered = some task.entries) :
    (g.advance k task).Used (g.advance k task).registrations := by
  obtain ⟨old, hold, hreg⟩ := Option.map_eq_some_iff.1 hk
  have hframe := acquired_acquireFrom g k (task.entries.drop task.acquired) task.acquired
  have hsame : (g.advance k task).registrations = g.registrations := by
    unfold SubscriptionGuards.advance registrations
    dsimp only
    rw [hframe.tasks, flatMap_set_of_eq hold]
    rw [hreg]
    exact HoldTask.registered_of_ne hframe.stays
  rw [hsame]
  intro f o ho
  refine h f o ?_
  rw [← hframe.guards]
  exact ho

theorem Used.hold (h : g.Used g.registrations) (filters : List String) :
    (g.hold filters).Used (g.hold filters).registrations := by
  obtain ⟨-, htasks⟩ := registerAll_frame g (sortedSet filters)
  have hused := Used.registerAll (sortedSet filters) h
  unfold SubscriptionGuards.hold
  dsimp only
  refine Used.advance (fun f o ho => ?_) ?_
  · unfold registrations
    dsimp only
    rw [htasks, List.flatMap_append, List.flatMap_singleton]
    exact List.mem_append.2 (List.mem_append.1 (hused f o ho)).symm
  · rw [htasks, List.getElem?_concat_length]
    rfl

theorem Used.resume (h : g.Used g.registrations) (k : Nat) :
    (g.resume k).Used (g.resume k).registrations := by
  obtain hsame | ⟨task, filter, o, hk, hstage, -, -, hresume⟩ := g.resume_cases k
  · rw [hsame]
    exact h
  · rw [hresume]
    refine Used.advance h ?_
    rw [hk]
    exact congrArg some (HoldTask.registered_of_ne (HoldTask.stays_of_waiting hstage))

theorem Used.leave (hcounted : g.Counted g.registrations) (h : g.Used g.registrations)
    (hk : g.tasks[k]? = some task) (hne : task.stage ≠ .left) :
    (g.leave k task).Used (g.leave k task).registrations := by
  obtain ⟨hguards, htasks, hreleased⟩ := releaseAll_frame (task.entries.take task.acquired).reverse g
  have hperm := @flatMap_set_perm g.tasks k task { task with acquired := 0, stage := .left } hk
  rw [HoldTask.registered_of_ne hne] at hperm
  have hleave := tasks_leave g k task
  unfold registrations
  rw [hleave]
  refine Used.deregisterAll ((hreleased _ hcounted).perm hperm.symm) fun f o ho => ?_
  rw [hguards] at ho
  exact hperm.mem_iff.2 (h f o ho)

theorem Used.exit (hinv : g.GuardInv) (h : g.Used g.registrations) (k : Nat) :
    (g.exit k).Used (g.exit k).registrations := by
  obtain hsame | ⟨task, hk, hstage, hexit⟩ := g.exit_cases k
  · rw [hsame]
    exact h
  · rw [hexit]
    exact Used.leave hinv.counted h hk (HoldTask.stays_of_inside hstage)

theorem Used.cancel (hinv : g.GuardInv) (h : g.Used g.registrations) (k : Nat) :
    (g.cancel k).Used (g.cancel k).registrations := by
  obtain hsame | ⟨task, filter, o, hk, hstage, -, hcancel⟩ := g.cancel_cases k
  · rw [hsame]
    exact h
  · rw [hcancel]
    exact Used.leave (g := g.modifyGuard o fun guard => guard.withdraw k) (hinv.counted.withdraw o k) h hk
      (HoldTask.stays_of_waiting hstage)

/-! ## The order of the locks -/

/-- Every task takes its locks in the order of the filters. -/
def Ordered (g : SubscriptionGuards) : Prop :=
  ∀ entries ∈ g.tasks.map HoldTask.entries, (entries.map Prod.fst).Pairwise (· < ·)

theorem pairwise_sortedSet (filters : List String) : (sortedSet filters).Pairwise (· < ·) := by
  have hle : (sortedSet filters).Pairwise (· ≤ ·) := List.pairwise_insertionSort _ _
  exact (hle.and (nodup_sortedSet filters)).imp fun h => lt_of_le_of_ne h.1 h.2

theorem Ordered.moved {g' : SubscriptionGuards} (h : g.Ordered) (hmoved : Moved k g g') : g'.Ordered := by
  unfold Ordered
  rw [hmoved.entries]
  exact h

theorem Ordered.hold (h : g.Ordered) (filters : List String) : (g.hold filters).Ordered := by
  obtain ⟨task, htasks, hfst⟩ := tasks_hold g filters
  intro entries hmem
  rw [htasks, List.map_append, List.map_singleton] at hmem
  rcases List.mem_append.1 hmem with hmem | hmem
  · exact h entries hmem
  · rw [List.mem_singleton.1 hmem, hfst]
    exact pairwise_sortedSet filters

/-! ## Runs -/

end SubscriptionGuards

/-- What happens to the tasks, in any order. -/
inductive GuardEvent where
  | hold (filters : List String)
  | resume (k : Nat)
  | exit (k : Nat)
  | cancel (k : Nat)
  deriving Repr, DecidableEq

namespace SubscriptionGuards

def step (g : SubscriptionGuards) : GuardEvent → SubscriptionGuards
  | .hold filters => g.hold filters
  | .resume k => g.resume k
  | .exit k => g.exit k
  | .cancel k => g.cancel k

/-- What holds in every state that is reached. -/
structure GuardRun (g : SubscriptionGuards) : Prop where
  guards : g.GuardInv
  used : g.Used g.registrations
  locked : g.Locked
  ordered : g.Ordered

variable {g : SubscriptionGuards} {k k' : Nat} {task task' : HoldTask} {o : Nat}

theorem guardRun_empty : GuardRun {} := by
  refine ⟨guardInv_empty, nofun, ⟨⟨nofun, nofun⟩, nofun⟩, fun entries hmem => ?_⟩
  cases hmem

theorem GuardRun.step (h : g.GuardRun) (e : GuardEvent) : (g.step e).GuardRun := by
  cases e with
  | hold filters =>
    exact ⟨h.guards.hold filters, h.used.hold filters, h.locked.hold h.guards filters,
      h.ordered.hold filters⟩
  | resume k =>
    exact ⟨h.guards.resume k, h.used.resume k, h.locked.resume h.guards k,
      h.ordered.moved (moved_resume g k)⟩
  | exit k =>
    exact ⟨h.guards.exit k, Used.exit h.guards h.used k, h.locked.exit h.guards k,
      h.ordered.moved (moved_exit g k)⟩
  | cancel k =>
    exact ⟨h.guards.cancel k, Used.cancel h.guards h.used k, h.locked.cancel h.guards k,
      h.ordered.moved (moved_cancel g k)⟩

theorem guardRun_reach (h : Reach SubscriptionGuards.step anyStep {} g) : g.GuardRun :=
  h.invariant guardRun_empty fun _ e hinv _ => hinv.step e

/-! ## Tasks that wait -/

/-- Task `k` is in `lock.acquire()` for the guard `o` of a filter. -/
def WaitsOn (g : SubscriptionGuards) (k : Nat) (entry : String × Nat) : Prop :=
  ∃ task, g.tasks[k]? = some task ∧ task.stage = .waiting ∧ task.entries[task.acquired]? = some entry

/-- Task `k` waits for a lock that another task holds. -/
def WaitsFor (g : SubscriptionGuards) (k k' : Nat) : Prop :=
  ∃ entry, g.WaitsOn k entry ∧ g.HolderIs entry.2 k' ∧ k' ≠ k

/-- Task `k` can take its next lock. -/
def CanTake (g : SubscriptionGuards) (k : Nat) : Prop :=
  ∃ entry, g.WaitsOn k entry ∧ g.HolderIs entry.2 k

/-- The filter whose lock a task waits for. -/
def nextFilter (g : SubscriptionGuards) (k : Nat) : String :=
  ((g.tasks[k]?).bind fun task => (task.entries[task.acquired]?).map Prod.fst).getD ""

variable {entry entry' : String × Nat}

theorem nextFilter_of_waitsOn (h : g.WaitsOn k entry) : g.nextFilter k = entry.1 := by
  obtain ⟨task, hk, -, hentry⟩ := h
  unfold nextFilter
  rw [hk, Option.bind_some, hentry]
  rfl

theorem WaitsOn.unique (h : g.WaitsOn k entry) (h' : g.WaitsOn k entry') : entry = entry' := by
  obtain ⟨task, hk, -, hentry⟩ := h
  obtain ⟨task', hk', -, hentry'⟩ := h'
  obtain rfl := Option.some.inj (hk.symm.trans hk')
  exact Option.some.inj (hentry.symm.trans hentry')

theorem waitsOn_of_next (h : (placeOf g.tasks k).next = some o) :
    ∃ entry, g.WaitsOn k entry ∧ entry.2 = o := by
  unfold placeOf at h
  cases hk : g.tasks[k]? with
  | none =>
    rw [hk] at h
    cases h
  | some task =>
    rw [hk] at h
    have hnext : task.place.next = some o := h
    unfold HoldTask.place at hnext
    cases hstage : task.stage with
    | waiting =>
      rw [hstage] at hnext
      obtain ⟨entry, hentry, rfl⟩ := Option.map_eq_some_iff.1 hnext
      exact ⟨entry, ⟨task, hk, hstage, hentry⟩, rfl⟩
    | inside =>
      rw [hstage] at hnext
      cases hnext
    | left =>
      rw [hstage] at hnext
      cases hnext

theorem next_of_waitsOn (h : g.WaitsOn k entry) : (placeOf g.tasks k).next = some entry.2 := by
  obtain ⟨task, hk, hstage, hentry⟩ := h
  rw [placeOf_of_waiting hk hstage hentry]

/-- What a task has taken is among its entries. -/
theorem exists_of_mem_taken (h : o ∈ (placeOf g.tasks k).taken) :
    ∃ task, g.tasks[k]? = some task ∧ task.stage ≠ .left ∧
      ∃ e ∈ task.entries.take task.acquired, e.2 = o := by
  unfold placeOf at h
  cases hk : g.tasks[k]? with
  | none =>
    rw [hk] at h
    cases h
  | some task =>
    rw [hk] at h
    have htaken : o ∈ task.place.taken := h
    refine ⟨task, rfl, fun hleft => ?_, ?_⟩
    · unfold HoldTask.place at htaken
      rw [hleft] at htaken
      cases htaken
    · unfold HoldTask.place at htaken
      split at htaken
      · exact List.mem_map.1 htaken
      · exact List.mem_map.1 htaken
      · cases htaken

/-- The lock that a task waits for is held. -/
theorem GuardRun.exists_holder (h : g.GuardRun) (hk : g.WaitsOn k entry) : ∃ k', g.HolderIs entry.2 k' := by
  have hnext := next_of_waitsOn hk
  have ho := List.getElem?_eq_getElem (h.locked.queues.bound k entry.2 hnext)
  have hqueue := h.locked.queues.queue entry.2 _ ho
  rcases hqueue.queued k hnext with hself | hmem
  · exact ⟨k, _, ho, hself⟩
  · cases hholder : (g.objects[entry.2]?).bind SubscriptionGuard.holder with
    | some k' =>
      rw [ho] at hholder
      exact ⟨k', _, ho, hholder⟩
    | none =>
      rw [ho] at hholder
      rw [hqueue.free hholder] at hmem
      cases hmem

/-- A task holds only locks that come before the one it waits for. -/
theorem GuardRun.nextFilter_lt (h : g.GuardRun) (hk : g.WaitsOn k entry) (hholder : g.HolderIs entry.2 k')
    (hk' : g.WaitsOn k' entry') (hother : ¬g.HolderIs entry'.2 k') : entry.1 < entry'.1 := by
  obtain ⟨guard, ho, hself⟩ := hholder
  rcases (h.locked.queues.queue entry.2 guard ho).holder k' hself with htaken | hnext
  · obtain ⟨task', htask', hne', e, he, hobject⟩ := exists_of_mem_taken htaken
    obtain ⟨task, htask, hstage, hentry⟩ := hk
    obtain ⟨task'', htask'', -, hentry'⟩ := hk'
    obtain rfl := Option.some.inj (htask'.symm.trans htask'')
    have hne := HoldTask.stays_of_waiting hstage
    -- the object that `k'` has taken is the guard of the filter that `k` waits for
    have hlive := h.guards.counted.live _ (mem_registrations htask hne (List.mem_of_getElem? hentry))
    have hlive' := h.guards.counted.live _ (mem_registrations htask' hne' (List.mem_of_mem_take he))
    rw [hobject] at hlive'
    rw [h.guards.counted.inj _ _ _ hlive hlive']
    have hsorted := h.ordered task'.entries (List.mem_map_of_mem (List.mem_of_getElem? htask'))
    obtain ⟨i, hi, rfl⟩ := List.mem_take_iff_getElem.1 he
    obtain ⟨hlt, rfl⟩ := List.getElem?_eq_some_iff.1 hentry'
    have hpair := List.pairwise_iff_getElem.1 hsorted i task'.acquired
      (by rw [List.length_map]; omega) (by rw [List.length_map]; exact hlt) (by omega)
    rw [List.getElem_map, List.getElem_map] at hpair
    exact hpair
  · obtain ⟨entry'', hk'', hobject⟩ := waitsOn_of_next hnext
    obtain rfl := hk'.unique hk''
    exact absurd ⟨guard, by rw [hobject]; exact ho, hself⟩ hother

theorem GuardRun.rank_lt (h : g.GuardRun) (a b c : Nat) (hab : g.WaitsFor a b) (hbc : g.WaitsFor b c) :
    g.nextFilter a < g.nextFilter b := by
  obtain ⟨entry, ha, hholder, -⟩ := hab
  obtain ⟨entry', hb, hholder', hne⟩ := hbc
  rw [nextFilter_of_waitsOn ha, nextFilter_of_waitsOn hb]
  exact h.nextFilter_lt ha hholder hb fun hself => hne (hholder'.unique hself)

/-- Only a task that has not left holds a lock. -/
theorem GuardRun.task_of_holder (h : g.GuardRun) (hholder : g.HolderIs o k) :
    ∃ task, g.tasks[k]? = some task ∧ task.stage ≠ .left := by
  obtain ⟨guard, ho, hself⟩ := hholder
  rcases (h.locked.queues.queue o guard ho).holder k hself with htaken | hnext
  · obtain ⟨task, hk, hne, -⟩ := exists_of_mem_taken htaken
    exact ⟨task, hk, hne⟩
  · obtain ⟨-, ⟨task, hk, hstage, -⟩, -⟩ := waitsOn_of_next hnext
    exact ⟨task, hk, HoldTask.stays_of_waiting hstage⟩

theorem GuardRun.finite_waitsFor (h : g.GuardRun) (k : Nat) :
    {k' | Relation.ReflTransGen g.WaitsFor k k'}.Finite := by
  refine ((Finset.range g.tasks.length).finite_toSet.insert k).subset fun k' hk' => ?_
  rcases Relation.ReflTransGen.cases_tail hk' with rfl | ⟨j, -, entry, -, hholder, -⟩
  · exact Set.mem_insert _ _
  · obtain ⟨task, htask, -⟩ := h.task_of_holder hholder
    refine Set.mem_insert_of_mem _ ?_
    rw [Finset.coe_range]
    exact (List.getElem?_eq_some_iff.1 htask).1

/-- A task that runs with the lock it was handed takes it. -/
theorem acquired_resume (h : g.CanTake k) : ∃ task task', g.tasks[k]? = some task ∧
    (g.resume k).tasks[k]? = some task' ∧ task.acquired < task'.acquired := by
  obtain ⟨⟨filter, o⟩, ⟨task, hk, hstage, hentry⟩, guard, ho, hself⟩ := h
  have hframe := acquired_acquireFrom g k (task.entries.drop (task.acquired + 1)) (task.acquired + 1)
  have hresume : g.resume k = g.advance k { task with acquired := task.acquired + 1 } := by
    have hany : ((g.objects[o]?).any fun guard => guard.holder = some k) = true := by
      rw [ho]
      exact decide_eq_true hself
    unfold SubscriptionGuards.resume
    rw [hk]
    dsimp only
    rw [hstage, hentry]
    exact if_pos hany
  rw [hresume]
  unfold SubscriptionGuards.advance
  dsimp only
  generalize g.acquireFrom k (task.entries.drop (task.acquired + 1)) (task.acquired + 1) = result at hframe ⊢
  obtain ⟨g', acquired, stage⟩ := result
  refine ⟨task, { task with acquired, stage }, hk, ?_, hframe.le.1⟩
  dsimp only
  rw [show g'.tasks = g.tasks from hframe.tasks]
  exact List.getElem?_set_self (List.getElem?_eq_some_iff.1 hk).1

/-- What `_SubscriptionGuards` owes its tasks. -/
structure Sound (g : SubscriptionGuards) : Prop where
  /-- Two tasks inside their blocks have no filter in common. -/
  exclusive : ∀ (k k' : Nat) task task', k ≠ k' → g.tasks[k]? = some task → g.tasks[k']? = some task' →
    task.stage = .inside → task'.stage = .inside →
    (task.entries.map Prod.fst).Disjoint (task'.entries.map Prod.fst)
  /-- The tasks registered on a filter have one guard object. -/
  shared : ∀ task ∈ g.tasks, ∀ task' ∈ g.tasks, ∀ f o o',
    (f, o) ∈ task.registered → (f, o') ∈ task'.registered → o = o'
  /-- The guard is in `_guards` exactly while a task is registered with it. -/
  live : ∀ f o, g.guards.get? f = some o ↔ ∃ task ∈ g.tasks, (f, o) ∈ task.registered
  users : ∀ (o : Nat) guard, g.objects[o]? = some guard →
    guard.users = (g.registrations.map Prod.snd).count o
  /-- Behind every task that waits there is one that is inside its block or can take its lock. -/
  progress : ∀ (k : Nat) task, g.tasks[k]? = some task → task.stage = .waiting →
    ∃ k', Relation.ReflTransGen g.WaitsFor k k' ∧ (g.isInside k' ∨ g.CanTake k')
  acyclic : ∀ k, ¬Relation.TransGen g.WaitsFor k k

theorem GuardRun.live_iff (h : g.GuardRun) (f : String) (o : Nat) :
    g.guards.get? f = some o ↔ ∃ task ∈ g.tasks, (f, o) ∈ task.registered :=
  ⟨fun ho => List.mem_flatMap.1 (h.used f o ho),
    fun hmem => h.guards.counted.live (f, o) (List.mem_flatMap.2 hmem)⟩

theorem GuardRun.progress (h : g.GuardRun) (hk : g.tasks[k]? = some task) (hstage : task.stage = .waiting) :
    ∃ k', Relation.ReflTransGen g.WaitsFor k k' ∧ (g.isInside k' ∨ g.CanTake k') := by
  obtain ⟨k', hreach, hlast⟩ := exists_not_waiting h.rank_lt (h.finite_waitsFor k)
  refine ⟨k', hreach, ?_⟩
  obtain ⟨task', hk', hne⟩ : ∃ task', g.tasks[k']? = some task' ∧ task'.stage ≠ .left := by
    rcases Relation.ReflTransGen.cases_tail hreach with rfl | ⟨j, -, entry, -, hholder, -⟩
    · exact ⟨task, hk, HoldTask.stays_of_waiting hstage⟩
    · exact h.task_of_holder hholder
  cases hstage' : task'.stage with
  | inside =>
    refine Or.inl ?_
    unfold isInside
    rw [hk']
    exact decide_eq_true hstage'
  | left => exact absurd hstage' hne
  | waiting =>
    have hlt := h.locked.pending k' task' hk' hstage'
    have hwaits : g.WaitsOn k' _ := ⟨task', hk', hstage', List.getElem?_eq_getElem hlt⟩
    obtain ⟨j, hj⟩ := h.exists_holder hwaits
    by_cases hself : j = k'
    · exact Or.inr ⟨_, hwaits, hself ▸ hj⟩
    · exact absurd ⟨_, hwaits, hj, hself⟩ (hlast j)

/-- **Subscription guards.** Whatever tasks enter `hold`, leave it or are cancelled, in any order:
    the guards are exclusive, deadlock-free and self-cleaning. -/
theorem sound_reach (h : Reach SubscriptionGuards.step anyStep {} g) : g.Sound := by
  have hrun := guardRun_reach h
  refine ⟨fun k k' task task' hne hk hk' hinside hinside' f hf hf' => ?_,
    fun task htask task' htask' f o o' ho ho' => ?_, hrun.live_iff, hrun.guards.counted.users,
    fun k task hk hstage => hrun.progress hk hstage, acyclic_of_rank hrun.rank_lt⟩
  · exact hne (hrun.guards.exclusive hk hk' hinside hinside' hf hf')
  · have hlive := (hrun.live_iff f o).2 ⟨task, htask, ho⟩
    rw [(hrun.live_iff f o').2 ⟨task', htask', ho'⟩] at hlive
    exact (Option.some.inj hlive).symm

/-- Two tasks with the same filters in a different order, and a third that queues. -/
theorem sound_reach_crossing :
    let g := [GuardEvent.hold ["b", "a", "b"], .hold ["a", "b"], .hold ["b"], .exit 0].foldl
      SubscriptionGuards.step {}
    g.CanTake 1 ∧ g.WaitsOn 1 ("a", 0) ∧ g.Sound := by
  refine ⟨⟨("a", 0), ⟨⟨[("a", 0), ("b", 1)], 0, .waiting⟩, ?_, rfl, rfl⟩, ⟨1, some 1, []⟩, ?_, rfl⟩, ?_, ?_⟩
  · decide +kernel
  · decide +kernel
  · exact ⟨⟨[("a", 0), ("b", 1)], 0, .waiting⟩, by decide +kernel, rfl, rfl⟩
  · exact sound_reach (Reach.foldl (meets_anyStep _))

end SubscriptionGuards

end Zmqtt
