/-
  Mutual exclusion of `_SubscriptionGuards`: two tasks inside `hold` have no filter in common.

  `users` of a guard counts the registrations that are left (`Counted`), so a guard is dropped
  only when nobody has it, and the tasks with one filter have one guard object. A task that has
  taken a lock is its holder until it releases it (`Held`).
-/
import Zmqtt.Session.Guards
import Zmqtt.Lib.Tasks

namespace Zmqtt

/-! ## Registrations -/

/-- The registrations that a task has not taken back. -/
def HoldTask.registered (task : HoldTask) : List (String × Nat) :=
  if task.stage = .left then [] else task.entries

theorem HoldTask.registered_of_ne {task : HoldTask} (h : task.stage ≠ .left) :
    task.registered = task.entries :=
  if_neg h

theorem HoldTask.stays_of_waiting {task : HoldTask} (h : task.stage = .waiting) : task.stage ≠ .left := by
  rw [h]
  decide

theorem HoldTask.stays_of_inside {task : HoldTask} (h : task.stage = .inside) : task.stage ≠ .left := by
  rw [h]
  decide

namespace SubscriptionGuards

/-- `_guards` and the guard objects, for the registrations that are left. -/
structure Counted (g : SubscriptionGuards) (entries : List (String × Nat)) : Prop where
  live : ∀ e ∈ entries, g.guards.get? e.1 = some e.2
  bound : ∀ f o, g.guards.get? f = some o → o < g.objects.length
  inj : ∀ f f' o, g.guards.get? f = some o → g.guards.get? f' = some o → f = f'
  users : ∀ (o : Nat) guard, g.objects[o]? = some guard → guard.users = (entries.map Prod.snd).count o

variable {g g' : SubscriptionGuards} {entries entries' : List (String × Nat)}

theorem Counted.perm (h : g.Counted entries) (hp : entries.Perm entries') : g.Counted entries' := by
  refine ⟨fun e he => h.live e (hp.mem_iff.2 he), h.bound, h.inj, fun o guard ho => ?_⟩
  rw [h.users o guard ho]
  exact (hp.map Prod.snd).count_eq o

theorem length_modifyGuard (g : SubscriptionGuards) (o : Nat)
    (change : SubscriptionGuard → SubscriptionGuard) :
    (g.modifyGuard o change).objects.length = g.objects.length :=
  List.length_modify ..

theorem eq_of_modifyGuard {o o' : Nat} {change : SubscriptionGuard → SubscriptionGuard}
    {guard : SubscriptionGuard} (h : (g.modifyGuard o change).objects[o']? = some guard) :
    ∃ old, g.objects[o']? = some old ∧ guard = if o = o' then change old else old := by
  unfold SubscriptionGuards.modifyGuard at h
  dsimp only at h
  rw [List.getElem?_modify] at h
  obtain ⟨old, hold, rfl⟩ := Option.map_eq_some_iff.1 h
  exact ⟨old, hold, rfl⟩

/-- A lock changes hands. -/
theorem Counted.modifyGuard (h : g.Counted entries) (o : Nat)
    {change : SubscriptionGuard → SubscriptionGuard} (hchange : ∀ guard, (change guard).users = guard.users) :
    (g.modifyGuard o change).Counted entries := by
  refine ⟨h.live, fun f o' ho' => ?_, h.inj, fun o' guard ho' => ?_⟩
  · rw [length_modifyGuard]
    exact h.bound f o' ho'
  · obtain ⟨old, hold, rfl⟩ := eq_of_modifyGuard ho'
    rw [← h.users o' old hold]
    split
    · exact hchange old
    · rfl

/-- Objects that no registration has are used by nobody. -/
theorem Counted.count_eq_zero (h : g.Counted entries) {o : Nat} (ho : g.objects.length ≤ o) :
    (entries.map Prod.snd).count o = 0 := by
  rw [List.count_eq_zero]
  intro hmem
  obtain ⟨e, he, rfl⟩ := List.mem_map.1 hmem
  exact absurd (h.bound e.1 e.2 (h.live e he)) (Nat.not_lt.2 ho)

theorem Counted.register (h : g.Counted entries) (filter : String) :
    (g.register filter).1.Counted ((filter, (g.register filter).2) :: entries) := by
  unfold SubscriptionGuards.register
  split
  · next o ho =>
    refine ⟨fun e he => ?_, fun f o' ho' => ?_, h.inj, fun o' guard ho' => ?_⟩
    · rcases List.mem_cons.1 he with rfl | he
      · exact ho
      · exact h.live e he
    · rw [length_modifyGuard]
      exact h.bound f o' ho'
    · obtain ⟨old, hold, rfl⟩ := eq_of_modifyGuard ho'
      rw [List.map_cons, List.count_cons, ← h.users o' old hold]
      by_cases he : o = o'
      · rw [if_pos he, if_pos (by simpa using he)]
      · rw [if_neg he, if_neg (by simpa using he)]
        rfl
  · next hnone =>
    have hget : ∀ f o, (g.guards.set filter g.objects.length).get? f = some o →
        filter = f ∧ o = g.objects.length ∨ g.guards.get? f = some o := by
      intro f o ho
      rw [Dict.get?_set] at ho
      split at ho
      · next he => exact Or.inl ⟨he, (Option.some.inj ho).symm⟩
      · exact Or.inr ho
    have hlt : ∀ f o, g.guards.get? f = some o → o ≠ g.objects.length :=
      fun f o ho => Nat.ne_of_lt (h.bound f o ho)
    refine ⟨fun e he => ?_, fun f o ho => ?_, fun f f' o ho ho' => ?_, fun o guard ho => ?_⟩
    · dsimp only
      rw [Dict.get?_set]
      rcases List.mem_cons.1 he with rfl | he
      · rw [if_pos rfl]
      · have hlive := h.live e he
        rw [if_neg]
        · exact hlive
        · rintro rfl
          rw [hnone] at hlive
          cases hlive
    · dsimp only
      rw [List.length_append, List.length_singleton]
      rcases hget f o ho with ⟨-, rfl⟩ | ho
      · exact Nat.lt_succ_self _
      · exact Nat.lt_succ_of_lt (h.bound f o ho)
    · rcases hget f o ho with ⟨rfl, rfl⟩ | hf
      · rcases hget f' _ ho' with ⟨rfl, -⟩ | hf'
        · rfl
        · exact absurd rfl (hlt f' _ hf')
      · rcases hget f' o ho' with ⟨rfl, rfl⟩ | hf'
        · exact absurd rfl (hlt f _ hf)
        · exact h.inj f f' o hf hf'
    · dsimp only at ho
      rw [List.map_cons, List.count_cons]
      rcases getElem?_concat_cases ho with ho | ⟨rfl, rfl⟩
      · have hne := Nat.ne_of_lt (List.getElem?_eq_some_iff.1 ho).1
        rw [h.users o guard ho, if_neg (by simpa using hne.symm)]
        rfl
      · rw [h.count_eq_zero (Nat.le_refl _), if_pos (by simp)]

theorem Counted.registerAll (filters : List String) (h : g.Counted entries) :
    (g.registerAll filters).1.Counted ((g.registerAll filters).2 ++ entries) := by
  induction filters generalizing g entries with
  | nil => exact h
  | cons filter filters ih =>
    refine (ih (h.register filter)).perm ?_
    exact List.perm_middle

theorem map_fst_registerAll (g : SubscriptionGuards) (filters : List String) :
    (g.registerAll filters).2.map Prod.fst = filters := by
  induction filters generalizing g with
  | nil => rfl
  | cons filter filters ih =>
    show filter :: ((g.register filter).1.registerAll filters).2.map Prod.fst = _
    rw [ih]

theorem objects_deregister (g : SubscriptionGuards) (e : String × Nat) :
    (g.deregister e).objects = g.objects.modify e.2 fun guard => { guard with users := guard.users - 1 } := by
  unfold SubscriptionGuards.deregister
  dsimp only
  split
  · rfl
  · rfl

/-- The last registration that is taken back drops the guard. -/
theorem guards_deregister {e : String × Nat} (h : g.Counted (e :: entries)) :
    (g.deregister e).guards =
      if (entries.map Prod.snd).count e.2 = 0 then g.guards.pop e.1 else g.guards := by
  have hlt := h.bound e.1 e.2 (h.live e List.mem_cons_self)
  obtain ⟨guard, hguard⟩ : ∃ guard, g.objects[e.2]? = some guard := ⟨_, List.getElem?_eq_getElem hlt⟩
  have husers := h.users e.2 guard hguard
  rw [List.map_cons, List.count_cons_self] at husers
  have hself : (g.modifyGuard e.2 fun guard => { guard with users := guard.users - 1 }).objects[e.2]? =
      some { guard with users := guard.users - 1 } := by
    unfold SubscriptionGuards.modifyGuard
    dsimp only
    rw [List.getElem?_modify_eq, hguard]
    rfl
  unfold SubscriptionGuards.deregister
  dsimp only
  rw [hself]
  by_cases hzero : (entries.map Prod.snd).count e.2 = 0
  · rw [if_pos hzero, if_pos]
    · rfl
    · show decide (guard.users - 1 = 0) = true
      exact decide_eq_true (by omega)
  · rw [if_neg hzero, if_neg]
    · rfl
    · show ¬decide (guard.users - 1 = 0) = true
      rw [decide_eq_true_iff]
      omega

/-- One registration is taken back. -/
theorem Counted.deregister {e : String × Nat} (h : g.Counted (e :: entries)) :
    (g.deregister e).Counted entries := by
  have hlive := h.live e List.mem_cons_self
  have hlength : (g.deregister e).objects.length = g.objects.length := by
    rw [objects_deregister, List.length_modify]
  have hobjects : ∀ (o : Nat) d, (g.deregister e).objects[o]? = some d →
      d.users = (entries.map Prod.snd).count o := by
    intro o d ho
    rw [objects_deregister, List.getElem?_modify] at ho
    obtain ⟨old, hold, rfl⟩ := Option.map_eq_some_iff.1 ho
    have husers := h.users o old hold
    rw [List.map_cons] at husers
    by_cases he : e.2 = o
    · subst he
      rw [List.count_cons_self] at husers
      rw [if_pos rfl]
      show old.users - 1 = _
      omega
    · rw [List.count_cons_of_ne he] at husers
      rw [if_neg he]
      exact husers
  by_cases hzero : (entries.map Prod.snd).count e.2 = 0
  · -- nobody is left with the object, so nobody with its filter
    have hnone : ∀ e' ∈ entries, e.1 ≠ e'.1 := by
      intro e' he' heq
      have hlive' := h.live e' (List.mem_cons_of_mem _ he')
      rw [← heq, hlive] at hlive'
      refine List.count_eq_zero.1 hzero ?_
      rw [Option.some.inj hlive']
      exact List.mem_map_of_mem he'
    have hpop : ∀ f o, (g.guards.pop e.1).get? f = some o → g.guards.get? f = some o := by
      intro f o ho
      rw [Dict.get?_pop] at ho
      split at ho
      · cases ho
      · exact ho
    have hguards := (guards_deregister h).trans (if_pos hzero)
    refine ⟨fun e' he' => ?_, fun f o ho => ?_, fun f f' o ho ho' => ?_, hobjects⟩
    · rw [hguards, Dict.get?_pop, if_neg (hnone e' he')]
      exact h.live e' (List.mem_cons_of_mem _ he')
    · rw [hlength]
      exact h.bound f o (hpop f o (hguards ▸ ho))
    · exact h.inj f f' o (hpop f o (hguards ▸ ho)) (hpop f' o (hguards ▸ ho'))
  · have hguards := (guards_deregister h).trans (if_neg hzero)
    refine ⟨fun e' he' => ?_, fun f o ho => ?_, fun f f' o ho ho' => ?_, hobjects⟩
    · rw [hguards]
      exact h.live e' (List.mem_cons_of_mem _ he')
    · rw [hlength]
      exact h.bound f o (hguards ▸ ho)
    · exact h.inj f f' o (hguards ▸ ho) (hguards ▸ ho')

theorem Counted.deregisterAll (registered : List (String × Nat)) (h : g.Counted (registered ++ entries)) :
    (registered.foldl SubscriptionGuards.deregister g).Counted entries := by
  induction registered generalizing g with
  | nil => exact h
  | cons e registered ih => exact ih (Counted.deregister h)

/-! ## Locks -/

/-- Task `k` holds the lock of object `o`. -/
def HolderIs (g : SubscriptionGuards) (o k : Nat) : Prop :=
  ∃ guard, g.objects[o]? = some guard ∧ guard.holder = some k

theorem HolderIs.unique {o k k' : Nat} (h : g.HolderIs o k) (h' : g.HolderIs o k') : k = k' := by
  obtain ⟨guard, ho, hk⟩ := h
  obtain ⟨guard', ho', hk'⟩ := h'
  rw [ho] at ho'
  rw [← Option.some.inj ho', hk] at hk'
  exact Option.some.inj hk'

/-- The locks that are held stay held. -/
def Keeps (g g' : SubscriptionGuards) : Prop := ∀ o k, g.HolderIs o k → g'.HolderIs o k

/-- The locks that tasks other than `k` hold stay held. -/
def KeepsOthers (k : Nat) (g g' : SubscriptionGuards) : Prop :=
  ∀ o k', k' ≠ k → g.HolderIs o k' → g'.HolderIs o k'

theorem holderIs_modifyGuard {o o' k : Nat} {change : SubscriptionGuard → SubscriptionGuard}
    (hne : o ≠ o') (h : g.HolderIs o' k) : (g.modifyGuard o change).HolderIs o' k := by
  obtain ⟨guard, ho, hk⟩ := h
  refine ⟨guard, ?_, hk⟩
  unfold SubscriptionGuards.modifyGuard
  dsimp only
  rw [List.getElem?_modify, ho]
  exact congrArg some (if_neg hne)

/-- A change of a guard but not of its holder. -/
theorem keeps_modifyGuard (g : SubscriptionGuards) (o : Nat)
    {change : SubscriptionGuard → SubscriptionGuard}
    (hchange : ∀ guard, guard.holder.isSome → (change guard).holder = guard.holder) :
    Keeps g (g.modifyGuard o change) := by
  intro o' k h
  by_cases hne : o = o'
  · subst hne
    obtain ⟨guard, ho, hk⟩ := h
    refine ⟨change guard, ?_, (hchange guard (by rw [hk]; rfl)).trans hk⟩
    unfold SubscriptionGuards.modifyGuard
    dsimp only
    rw [List.getElem?_modify_eq, ho]
    rfl
  · exact holderIs_modifyGuard hne h

/-- What the loop over the locks does. -/
structure Acquired (g g' : SubscriptionGuards) (k : Nat) (todo : List (String × Nat))
    (acquired acquired' : Nat) (stage : HoldStage) : Prop where
  guards : g'.guards = g.guards
  tasks : g'.tasks = g.tasks
  counted : ∀ entries, g.Counted entries → g'.Counted entries
  keeps : Keeps g g'
  le : acquired ≤ acquired' ∧ acquired' ≤ acquired + todo.length
  taken : ∀ e ∈ todo.take (acquired' - acquired), g'.HolderIs e.2 k
  inside : stage = .inside → acquired' = acquired + todo.length
  stays : stage ≠ .left

theorem acquired_acquireFrom (g : SubscriptionGuards) (k : Nat) (todo : List (String × Nat))
    (acquired : Nat) : Acquired g (g.acquireFrom k todo acquired).1 k todo acquired
      (g.acquireFrom k todo acquired).2.1 (g.acquireFrom k todo acquired).2.2 := by
  induction todo generalizing g acquired with
  | nil =>
    refine ⟨rfl, rfl, fun _ h => h, fun _ _ h => h, ⟨Nat.le_refl _, Nat.le_refl _⟩, ?_, fun _ => rfl, nofun⟩
    exact fun e he => absurd he (by simp)
  | cons e todo ih =>
    obtain ⟨filter, o⟩ := e
    have hstop : ∀ g' : SubscriptionGuards, g'.guards = g.guards → g'.tasks = g.tasks →
        (∀ entries, g.Counted entries → g'.Counted entries) → Keeps g g' →
        Acquired g g' k ((filter, o) :: todo) acquired acquired .waiting := by
      intro g' hguards htasks hcounted hkeeps
      refine ⟨hguards, htasks, hcounted, hkeeps, ⟨Nat.le_refl _, Nat.le_add_right _ _⟩, ?_, nofun, nofun⟩
      exact fun e he => absurd he (by simp)
    unfold acquireFrom
    split
    · exact hstop g rfl rfl (fun _ h => h) fun _ _ h => h
    · next guard ho =>
      split
      · next hfree =>
        have hcounted : ∀ entries, g.Counted entries →
            (g.modifyGuard o fun guard => { guard with holder := some k }).Counted entries :=
          fun entries h => h.modifyGuard o fun _ => rfl
        have hkeeps : Keeps g (g.modifyGuard o fun guard => { guard with holder := some k }) := by
          intro o' k' h
          refine holderIs_modifyGuard ?_ h
          rintro rfl
          obtain ⟨guard', ho', hk'⟩ := h
          rw [ho] at ho'
          rw [← Option.some.inj ho'] at hk'
          rw [hk'] at hfree
          cases hfree
        have hself : (g.modifyGuard o fun guard => { guard with holder := some k }).HolderIs o k := by
          refine ⟨{ guard with holder := some k }, ?_, rfl⟩
          unfold SubscriptionGuards.modifyGuard
          dsimp only
          rw [List.getElem?_modify_eq, ho]
          rfl
        have h := ih (g.modifyGuard o fun guard => { guard with holder := some k }) (acquired + 1)
        obtain ⟨hlo, hhi⟩ := h.le
        refine ⟨h.guards, h.tasks, fun entries hc => h.counted entries (hcounted entries hc),
          fun o' k' ho' => h.keeps o' k' (hkeeps o' k' ho'), ⟨by omega, ?_⟩, fun e he => ?_, fun hs => ?_,
          h.stays⟩
        · rw [List.length_cons]
          omega
        · rw [show ∀ n : Nat, acquired + 1 ≤ n → n - acquired = (n - (acquired + 1)) + 1 from
            fun n hn => by omega] at he
          · rw [List.take_succ_cons] at he
            rcases List.mem_cons.1 he with rfl | he
            · exact h.keeps o k hself
            · exact h.taken e he
          · exact hlo
        · rw [h.inside hs, List.length_cons]
          omega
      · next hheld =>
        refine hstop _ rfl rfl (fun entries h => h.modifyGuard o fun _ => rfl) ?_
        exact keeps_modifyGuard g o fun _ _ => rfl

/-! ## The invariant -/

/-- The registrations of all tasks. -/
def registrations (g : SubscriptionGuards) : List (String × Nat) := g.tasks.flatMap HoldTask.registered

/-- A task that has not left holds the locks it has taken. -/
structure Held (g : SubscriptionGuards) (k : Nat) (task : HoldTask) : Prop where
  taken : ∀ e ∈ task.entries.take task.acquired, g.HolderIs e.2 k
  le : task.acquired ≤ task.entries.length
  inside : task.stage = .inside → task.acquired = task.entries.length
  nodup : (task.entries.map Prod.fst).Nodup

structure GuardInv (g : SubscriptionGuards) : Prop where
  counted : g.Counted g.registrations
  held : ∀ (k : Nat) task, g.tasks[k]? = some task → task.stage ≠ .left → g.Held k task

theorem Held.keeps {k : Nat} {task : HoldTask} (h : g.Held k task)
    (hkeeps : ∀ o, g.HolderIs o k → g'.HolderIs o k) : g'.Held k task :=
  ⟨fun e he => hkeeps e.2 (h.taken e he), h.le, h.inside, h.nodup⟩

/-- The registrations with one task replaced. -/
theorem flatMap_set_perm {tasks : List HoldTask} {k : Nat} {task task' : HoldTask}
    (hk : tasks[k]? = some task) :
    (task.registered ++ (tasks.set k task').flatMap HoldTask.registered).Perm
      (task'.registered ++ tasks.flatMap HoldTask.registered) := by
  obtain ⟨l, r, rfl, hset⟩ := split_at hk
  rw [hset, List.flatMap_append, List.flatMap_append, List.flatMap_cons, List.flatMap_cons]
  refine List.perm_iff_count.2 fun e => ?_
  simp only [List.count_append]
  omega

theorem flatMap_set_of_eq {tasks : List HoldTask} {k : Nat} {task task' : HoldTask}
    (hk : tasks[k]? = some task) (h : task'.registered = task.registered) :
    (tasks.set k task').flatMap HoldTask.registered = tasks.flatMap HoldTask.registered := by
  obtain ⟨l, r, rfl, hset⟩ := split_at hk
  rw [hset, List.flatMap_append, List.flatMap_append, List.flatMap_cons, List.flatMap_cons, h]

/-- Replacing a task touches neither guards nor locks. -/
theorem guardInv_tasks {tasks : List HoldTask}
    (hcounted : g.Counted (tasks.flatMap HoldTask.registered))
    (hheld : ∀ (j : Nat) other, tasks[j]? = some other → other.stage ≠ .left → g.Held j other) :
    GuardInv { g with tasks } := by
  refine ⟨⟨hcounted.live, hcounted.bound, hcounted.inj, hcounted.users⟩, fun j other hj hstage => ?_⟩
  have h := hheld j other hj hstage
  exact ⟨h.taken, h.le, h.inside, h.nodup⟩

/-- A task goes on in the loop over the locks. -/
theorem GuardInv.advance {k : Nat} {task : HoldTask} (hcounted : g.Counted g.registrations)
    (hheld : ∀ (j : Nat) other, j ≠ k → g.tasks[j]? = some other → other.stage ≠ .left → g.Held j other)
    (hk : (g.tasks[k]?).map HoldTask.registered = some task.entries)
    (htaken : ∀ e ∈ task.entries.take task.acquired, g.HolderIs e.2 k)
    (hle : task.acquired ≤ task.entries.length) (hnodup : (task.entries.map Prod.fst).Nodup) :
    (g.advance k task).GuardInv := by
  obtain ⟨old, hold, hreg⟩ := Option.map_eq_some_iff.1 hk
  have h := acquired_acquireFrom g k (task.entries.drop task.acquired) task.acquired
  unfold SubscriptionGuards.advance
  generalize g.acquireFrom k (task.entries.drop task.acquired) task.acquired = result at h ⊢
  obtain ⟨g', acquired', stage⟩ := result
  dsimp only at h ⊢
  obtain ⟨hlo, hhi⟩ := h.le
  rw [List.length_drop] at hhi
  refine guardInv_tasks ?_ fun j other hj hstage => ?_
  · rw [h.tasks, flatMap_set_of_eq hold]
    · exact h.counted _ hcounted
    · rw [hreg]
      exact HoldTask.registered_of_ne h.stays
  · rw [h.tasks] at hj
    by_cases hjk : j = k
    · subst hjk
      rw [List.getElem?_set_self (List.getElem?_eq_some_iff.1 hold).1] at hj
      obtain rfl := Option.some.inj hj
      refine ⟨fun e he => ?_, ?_, fun hs => ?_, hnodup⟩
      · -- the locks taken before, and those taken now
        have hsplit : task.entries.take acquired' = task.entries.take task.acquired ++
            (task.entries.drop task.acquired).take (acquired' - task.acquired) := by
          rw [← List.take_add]
          congr 1
          omega
        dsimp only at he
        rw [hsplit] at he
        rcases List.mem_append.1 he with he | he
        · exact h.keeps _ _ (htaken e he)
        · exact h.taken e he
      · dsimp only
        omega
      · have hall := h.inside hs
        rw [List.length_drop] at hall
        dsimp only
        omega
    · rw [List.getElem?_set_ne (Ne.symm hjk)] at hj
      exact (hheld j other hjk hj hstage).keeps fun o ho => h.keeps o j ho

/-! ## The operations -/

/-- What `resume` does: nothing, or the task takes the lock that was handed to it and goes on. -/
theorem resume_cases (g : SubscriptionGuards) (k : Nat) : g.resume k = g ∨
    ∃ task filter o, g.tasks[k]? = some task ∧ task.stage = .waiting ∧
      task.entries[task.acquired]? = some (filter, o) ∧ g.HolderIs o k ∧
      g.resume k = g.advance k { task with acquired := task.acquired + 1 } := by
  unfold SubscriptionGuards.resume
  split
  · exact Or.inl rfl
  · next task hk =>
    split
    · next filter o hstage hentry =>
      split
      · next hholder =>
        obtain ⟨guard, hguard, hself⟩ := (Option.any_eq_true _ _).1 hholder
        exact Or.inr ⟨task, filter, o, hk, hstage, hentry, ⟨guard, hguard, of_decide_eq_true hself⟩, rfl⟩
      · exact Or.inl rfl
    · exact Or.inl rfl

theorem exit_cases (g : SubscriptionGuards) (k : Nat) : g.exit k = g ∨
    ∃ task, g.tasks[k]? = some task ∧ task.stage = .inside ∧ g.exit k = g.leave k task := by
  unfold SubscriptionGuards.exit
  split
  · next task hk =>
    split
    · next hstage => exact Or.inr ⟨task, hk, hstage, rfl⟩
    · exact Or.inl rfl
  · exact Or.inl rfl

/-- What `cancel` does: nothing, or the task leaves the queue that it waits in, and `hold`. -/
theorem cancel_cases (g : SubscriptionGuards) (k : Nat) : g.cancel k = g ∨
    ∃ task filter o, g.tasks[k]? = some task ∧ task.stage = .waiting ∧
      task.entries[task.acquired]? = some (filter, o) ∧
      g.cancel k = (g.modifyGuard o fun guard => guard.withdraw k).leave k task := by
  unfold SubscriptionGuards.cancel
  split
  · exact Or.inl rfl
  · next task hk =>
    split
    · next filter o hstage hentry => exact Or.inr ⟨task, filter, o, hk, hstage, hentry, rfl⟩
    · exact Or.inl rfl

theorem nodup_sortedSet (filters : List String) : (sortedSet filters).Nodup := by
  unfold sortedSet
  rw [(List.perm_insertionSort _ _).nodup_iff]
  exact List.nodup_dedup filters

theorem mem_sortedSet {filter : String} {filters : List String} :
    filter ∈ sortedSet filters ↔ filter ∈ filters := by
  unfold sortedSet
  rw [(List.perm_insertionSort _ _).mem_iff, List.mem_dedup]

/-- Registering leaves the locks and the tasks alone. -/
theorem registerAll_frame (g : SubscriptionGuards) (filters : List String) :
    Keeps g (g.registerAll filters).1 ∧ (g.registerAll filters).1.tasks = g.tasks := by
  induction filters generalizing g with
  | nil => exact ⟨fun _ _ h => h, rfl⟩
  | cons filter filters ih =>
    have hone : Keeps g (g.register filter).1 ∧ (g.register filter).1.tasks = g.tasks := by
      unfold SubscriptionGuards.register
      split
      · exact ⟨keeps_modifyGuard g _ fun _ _ => rfl, rfl⟩
      · refine ⟨?_, rfl⟩
        rintro o k ⟨guard, ho, hk⟩
        refine ⟨guard, ?_, hk⟩
        dsimp only
        rw [List.getElem?_append_left (List.getElem?_eq_some_iff.1 ho).1]
        exact ho
    obtain ⟨hkeeps, htasks⟩ := ih (g.register filter).1
    exact ⟨fun o k h => hkeeps o k (hone.1 o k h), htasks.trans hone.2⟩

theorem GuardInv.hold (h : g.GuardInv) (filters : List String) : (g.hold filters).GuardInv := by
  obtain ⟨hkeeps, htasks⟩ := registerAll_frame g (sortedSet filters)
  have hcounted := Counted.registerAll (sortedSet filters) h.counted
  have hfst := map_fst_registerAll g (sortedSet filters)
  unfold SubscriptionGuards.hold
  dsimp only
  have hnew : (g.tasks ++ [({ entries := (g.registerAll (sortedSet filters)).2 } : HoldTask)])[
      g.tasks.length]? = some { entries := (g.registerAll (sortedSet filters)).2 } :=
    List.getElem?_concat_length ..
  refine GuardInv.advance ?_ (fun j other hj hget hstage => ?_) ?_ ?_ (Nat.zero_le _) ?_
  · refine Counted.perm (g := { (g.registerAll (sortedSet filters)).1 with
      tasks := (g.registerAll (sortedSet filters)).1.tasks ++
        [{ entries := (g.registerAll (sortedSet filters)).2 }] })
      ⟨hcounted.live, hcounted.bound, hcounted.inj, hcounted.users⟩ ?_
    rw [htasks]
    show (_ ++ g.tasks.flatMap HoldTask.registered).Perm
      ((g.tasks ++ [_]).flatMap HoldTask.registered)
    rw [List.flatMap_append, List.flatMap_singleton]
    exact List.perm_append_comm
  · rw [htasks] at hget
    rcases getElem?_concat_cases hget with hget | ⟨rfl, -⟩
    · have hother := h.held j other hget hstage
      exact ⟨fun e he => hkeeps _ _ (hother.taken e he), hother.le, hother.inside, hother.nodup⟩
    · exact absurd rfl hj
  · rw [htasks, hnew]
    rfl
  · exact fun e he => absurd he (by simp)
  · dsimp only
    rw [hfst]
    exact nodup_sortedSet filters

/-- Task `k` gets the lock it waited for. -/
theorem GuardInv.resume (h : g.GuardInv) (k : Nat) : (g.resume k).GuardInv := by
  obtain hsame | ⟨task, filter, o, hk, hstage, hentry, hholder, hresume⟩ := g.resume_cases k
  · rw [hsame]
    exact h
  · have hne := HoldTask.stays_of_waiting hstage
    have hheld := h.held k task hk hne
    have hlt := (List.getElem?_eq_some_iff.1 hentry).1
    rw [hresume]
    refine GuardInv.advance h.counted (fun j other _ hj hs => h.held j other hj hs) ?_
      (fun e he => ?_) hlt hheld.nodup
    · rw [hk]
      exact congrArg some (HoldTask.registered_of_ne hne)
    · dsimp only at he
      rw [List.take_add_one, hentry, List.mem_append] at he
      rcases he with he | he
      · exact hheld.taken e he
      · rw [Option.toList_some, List.mem_singleton] at he
        rw [he]
        exact hholder

/-- A lock of task `k` is released. -/
theorem keepsOthers_release {o k : Nat} (h : g.HolderIs o k) :
    KeepsOthers k g (g.modifyGuard o SubscriptionGuard.release) := by
  intro o' k' hne h'
  refine holderIs_modifyGuard ?_ h'
  rintro rfl
  exact hne (h'.unique h)

/-- Task `k` leaves the queue of a lock. -/
theorem keepsOthers_withdraw (g : SubscriptionGuards) (o k : Nat) :
    KeepsOthers k g (g.modifyGuard o fun guard => guard.withdraw k) := by
  intro o' k' hne h
  by_cases ho : o = o'
  · subst ho
    obtain ⟨guard, hguard, hk'⟩ := h
    refine ⟨guard.withdraw k, ?_, ?_⟩
    · unfold SubscriptionGuards.modifyGuard
      dsimp only
      rw [List.getElem?_modify_eq, hguard]
      rfl
    · rw [SubscriptionGuard.withdraw, if_neg]
      · exact hk'
      · rw [hk']
        exact fun he => hne (Option.some.inj he)
  · exact holderIs_modifyGuard ho h

/-- Releasing locks leaves `_guards` and the tasks alone. -/
theorem releaseAll_frame (held : List (String × Nat)) (g : SubscriptionGuards) :
    let g' := held.foldl (fun g entry => g.modifyGuard entry.2 SubscriptionGuard.release) g
    g'.guards = g.guards ∧ g'.tasks = g.tasks ∧ ∀ entries, g.Counted entries → g'.Counted entries := by
  induction held generalizing g with
  | nil => exact ⟨rfl, rfl, fun _ h => h⟩
  | cons e held ih =>
    obtain ⟨hguards, htasks, hcounted⟩ := ih (g.modifyGuard e.2 SubscriptionGuard.release)
    exact ⟨hguards, htasks, fun entries h => hcounted entries (h.modifyGuard e.2 fun _ => rfl)⟩

/-- The locks of task `k` are released, the last one first. -/
theorem keepsOthers_releaseAll {k : Nat} (held : List (String × Nat)) (g : SubscriptionGuards)
    (hheld : ∀ e ∈ held, g.HolderIs e.2 k) (hnodup : (held.map Prod.snd).Nodup) :
    KeepsOthers k g
      (held.foldl (fun g entry => g.modifyGuard entry.2 SubscriptionGuard.release) g) := by
  induction held generalizing g with
  | nil => exact fun _ _ _ h => h
  | cons e held ih =>
    rw [List.map_cons, List.nodup_cons] at hnodup
    have hone := keepsOthers_release (hheld e List.mem_cons_self)
    have hkeeps := ih (g.modifyGuard e.2 SubscriptionGuard.release) (by
      intro e' he'
      refine holderIs_modifyGuard (fun heq => hnodup.1 ?_) (hheld e' (List.mem_cons_of_mem _ he'))
      rw [heq]
      exact List.mem_map_of_mem he') hnodup.2
    exact fun o k' hne h => hkeeps o k' hne (hone o k' hne h)

theorem deregister_frame (g : SubscriptionGuards) (e : String × Nat) :
    Keeps g (g.deregister e) ∧ (g.deregister e).tasks = g.tasks := by
  have hkeeps := @keeps_modifyGuard g e.2 (fun guard => { guard with users := guard.users - 1 })
    fun _ _ => rfl
  unfold SubscriptionGuards.deregister
  dsimp only
  split
  · exact ⟨hkeeps, rfl⟩
  · exact ⟨hkeeps, rfl⟩

theorem deregisterAll_frame (entries : List (String × Nat)) (g : SubscriptionGuards) :
    Keeps g (entries.foldl deregister g) ∧ (entries.foldl deregister g).tasks = g.tasks := by
  induction entries generalizing g with
  | nil => exact ⟨fun _ _ h => h, rfl⟩
  | cons e entries ih =>
    obtain ⟨hkeeps, htasks⟩ := deregister_frame g e
    obtain ⟨hkeeps', htasks'⟩ := ih (g.deregister e)
    exact ⟨fun o k h => hkeeps' o k (hkeeps o k h), htasks'.trans htasks⟩

/-- A task has one object for each filter. -/
theorem Counted.nodup_objects {entries : List (String × Nat)} (h : g.Counted entries)
    {own : List (String × Nat)} (hsub : ∀ e ∈ own, e ∈ entries) (hnodup : (own.map Prod.fst).Nodup) :
    (own.map Prod.snd).Nodup := by
  rw [List.nodup_map_iff_inj_on (List.Nodup.of_map _ hnodup)]
  intro e he e' he' heq
  have hlive := h.live e (hsub e he)
  rw [heq] at hlive
  exact Prod.ext (h.inj _ _ _ hlive (h.live e' (hsub e' he'))) heq

theorem mem_registrations {k : Nat} {task : HoldTask} (hk : g.tasks[k]? = some task)
    (hne : task.stage ≠ .left) {e : String × Nat} (he : e ∈ task.entries) : e ∈ g.registrations := by
  refine List.mem_flatMap.2 ⟨task, List.mem_of_getElem? hk, ?_⟩
  rw [HoldTask.registered_of_ne hne]
  exact he

/-- The `finally` block: the other tasks keep their guards and their locks. -/
theorem GuardInv.leave {k : Nat} {task : HoldTask} (hcounted : g.Counted g.registrations)
    (hheld : ∀ (j : Nat) other, j ≠ k → g.tasks[j]? = some other → other.stage ≠ .left → g.Held j other)
    (hk : g.tasks[k]? = some task) (hne : task.stage ≠ .left)
    (htaken : ∀ e ∈ task.entries.take task.acquired, g.HolderIs e.2 k)
    (hnodup : (task.entries.map Prod.fst).Nodup) : (g.leave k task).GuardInv := by
  have hsub : ∀ e ∈ (task.entries.take task.acquired).reverse, e ∈ task.entries.take task.acquired :=
    fun e he => List.mem_reverse.1 he
  have hobjects : ((task.entries.take task.acquired).reverse.map Prod.snd).Nodup := by
    refine hcounted.nodup_objects (fun e he => ?_) ?_
    · exact mem_registrations hk hne (List.mem_of_mem_take (hsub e he))
    · rw [List.map_reverse, List.nodup_reverse, List.map_take]
      exact hnodup.sublist (List.take_sublist _ _)
  have hkeeps := keepsOthers_releaseAll _ g (fun e he => htaken e (hsub e he)) hobjects
  obtain ⟨-, htasks, hreleased⟩ := releaseAll_frame (task.entries.take task.acquired).reverse g
  unfold SubscriptionGuards.leave
  dsimp only
  generalize ((task.entries.take task.acquired).reverse.foldl
    (fun g entry => g.modifyGuard entry.2 SubscriptionGuard.release) g) = g₁ at hkeeps htasks hreleased ⊢
  obtain ⟨hkeeps', htasks'⟩ := deregisterAll_frame task.entries g₁
  refine guardInv_tasks ?_ fun j other hj hstage => ?_
  · rw [htasks', htasks]
    refine Counted.deregisterAll task.entries ((hreleased _ hcounted).perm ?_)
    have hperm := @flatMap_set_perm g.tasks k task { task with acquired := 0, stage := .left } hk
    rw [HoldTask.registered_of_ne hne] at hperm
    exact hperm.symm
  · rw [htasks', htasks] at hj
    by_cases hjk : j = k
    · subst hjk
      rw [List.getElem?_set_self (List.getElem?_eq_some_iff.1 hk).1] at hj
      exact absurd (Option.some.inj hj ▸ rfl) hstage
    · rw [List.getElem?_set_ne (Ne.symm hjk)] at hj
      exact (hheld j other hjk hj hstage).keeps fun o ho => hkeeps' o j (hkeeps o j hjk ho)

theorem GuardInv.exit (h : g.GuardInv) (k : Nat) : (g.exit k).GuardInv := by
  obtain hsame | ⟨task, hk, hstage, hexit⟩ := g.exit_cases k
  · rw [hsame]
    exact h
  · have hne := HoldTask.stays_of_inside hstage
    have hheld := h.held k task hk hne
    rw [hexit]
    exact GuardInv.leave h.counted (fun j other _ hj hs => h.held j other hj hs) hk hne hheld.taken
      hheld.nodup

/-- The next lock of a task is none of those it has taken. -/
theorem GuardInv.next_not_taken (h : g.GuardInv) {k : Nat} {task : HoldTask} (hk : g.tasks[k]? = some task)
    (hne : task.stage ≠ .left) {next : String × Nat} (hentry : task.entries[task.acquired]? = some next) :
    ∀ e ∈ task.entries.take task.acquired, next.2 ≠ e.2 := by
  intro e he heq
  have hsnd := h.counted.nodup_objects (fun e he => mem_registrations hk hne he) (h.held k task hk hne).nodup
  obtain ⟨i, hi, rfl⟩ := List.mem_take_iff_getElem.1 he
  have hlt : i < task.entries.length := by omega
  have hsame : (task.entries.map Prod.snd)[i]? = (task.entries.map Prod.snd)[task.acquired]? := by
    rw [List.getElem?_map, List.getElem?_map, hentry, List.getElem?_eq_getElem hlt]
    exact congrArg some heq.symm
  have hidx := (List.getElem?_inj (by rw [List.length_map]; exact hlt) hsnd).1 hsame
  omega

/-- Whoever gives up waiting stays registered. -/
theorem Counted.withdraw (h : g.Counted entries) (o k : Nat) :
    (g.modifyGuard o fun guard => guard.withdraw k).Counted entries := by
  refine h.modifyGuard o fun guard => ?_
  unfold SubscriptionGuard.withdraw
  split
  · rfl
  · rfl

theorem GuardInv.cancel (h : g.GuardInv) (k : Nat) : (g.cancel k).GuardInv := by
  obtain hsame | ⟨task, filter, o, hk, hstage, hentry, hcancel⟩ := g.cancel_cases k
  · rw [hsame]
    exact h
  · have hne := HoldTask.stays_of_waiting hstage
    have hheld := h.held k task hk hne
    have hother := h.next_not_taken hk hne hentry
    rw [hcancel]
    refine GuardInv.leave (h.counted.withdraw o k) (fun j other hjk hj hs => ?_) hk hne ?_ hheld.nodup
    · exact (h.held j other hj hs).keeps fun o' ho' => keepsOthers_withdraw g o k o' j hjk ho'
    · intro e he
      exact holderIs_modifyGuard (hother e he) (hheld.taken e he)

theorem guardInv_empty : GuardInv {} := by
  refine ⟨⟨fun e he => ?_, nofun, nofun, nofun⟩, fun k task hk => ?_⟩
  · cases he
  · cases hk

/-- **Mutual exclusion.** Two tasks inside their blocks have no filter in common. -/
theorem GuardInv.exclusive (h : g.GuardInv) {k k' : Nat} {task task' : HoldTask}
    (hk : g.tasks[k]? = some task) (hk' : g.tasks[k']? = some task')
    (hinside : task.stage = .inside) (hinside' : task'.stage = .inside) {filter : String}
    (hf : filter ∈ task.entries.map Prod.fst) (hf' : filter ∈ task'.entries.map Prod.fst) : k = k' := by
  obtain ⟨⟨f, o⟩, he, rfl⟩ := List.mem_map.1 hf
  obtain ⟨⟨f', o'⟩, he', heq⟩ := List.mem_map.1 hf'
  have hne := HoldTask.stays_of_inside hinside
  have hne' := HoldTask.stays_of_inside hinside'
  have hheld := h.held k task hk hne
  have hheld' := h.held k' task' hk' hne'
  have hlive := h.counted.live _ (mem_registrations hk hne he)
  have hlive' := h.counted.live _ (mem_registrations hk' hne' he')
  dsimp only at heq hlive hlive'
  rw [heq, hlive] at hlive'
  have hholder : g.HolderIs o k := by
    refine hheld.taken (f, o) ?_
    rw [hheld.inside hinside, List.take_length]
    exact he
  have hholder' : g.HolderIs o' k' := by
    refine hheld'.taken (f', o') ?_
    rw [hheld'.inside hinside', List.take_length]
    exact he'
  rw [← Option.some.inj hlive'] at hholder'
  exact hholder.unique hholder'

/-! ## Other tasks -/

/-- Task `k` goes on: every other task stays, and so does what each has registered. -/
structure Moved (k : Nat) (g g' : SubscriptionGuards) : Prop where
  others : ∀ j, j ≠ k → g'.tasks[j]? = g.tasks[j]?
  entries : g'.tasks.map HoldTask.entries = g.tasks.map HoldTask.entries

theorem moved_refl (k : Nat) (g : SubscriptionGuards) : Moved k g g := ⟨fun _ _ => rfl, rfl⟩

theorem moved_set {k : Nat} {task task' : HoldTask} (hk : g.tasks[k]? = some task)
    (hentries : task'.entries = task.entries) (htasks : g'.tasks = g.tasks.set k task') :
    Moved k g g' := by
  refine ⟨fun j hj => ?_, ?_⟩
  · rw [htasks, List.getElem?_set_ne (Ne.symm hj)]
  · obtain ⟨l, r, hsplit, hset⟩ := split_at hk
    rw [htasks, hset, hsplit, List.map_append, List.map_append, List.map_cons, List.map_cons, hentries]

theorem tasks_advance (g : SubscriptionGuards) (k : Nat) (task : HoldTask) :
    ∃ acquired stage, (g.advance k task).tasks = g.tasks.set k { task with acquired, stage } := by
  have h := acquired_acquireFrom g k (task.entries.drop task.acquired) task.acquired
  unfold SubscriptionGuards.advance
  generalize g.acquireFrom k (task.entries.drop task.acquired) task.acquired = result at h ⊢
  obtain ⟨g', acquired, stage⟩ := result
  refine ⟨acquired, stage, ?_⟩
  dsimp only
  rw [h.tasks]

theorem tasks_leave (g : SubscriptionGuards) (k : Nat) (task : HoldTask) :
    (g.leave k task).tasks = g.tasks.set k { task with acquired := 0, stage := .left } := by
  unfold SubscriptionGuards.leave
  dsimp only
  rw [(deregisterAll_frame _ _).2, (releaseAll_frame _ _).2.1]

theorem moved_resume (g : SubscriptionGuards) (k : Nat) : Moved k g (g.resume k) := by
  obtain hsame | ⟨task, filter, o, hk, -, -, -, hresume⟩ := g.resume_cases k
  · rw [hsame]
    exact moved_refl k g
  · obtain ⟨acquired, stage, htasks⟩ := tasks_advance g k { task with acquired := task.acquired + 1 }
    rw [hresume]
    refine moved_set hk ?_ htasks
    rfl

theorem moved_exit (g : SubscriptionGuards) (k : Nat) : Moved k g (g.exit k) := by
  obtain hsame | ⟨task, hk, -, hexit⟩ := g.exit_cases k
  · rw [hsame]
    exact moved_refl k g
  · rw [hexit]
    refine moved_set hk ?_ (tasks_leave g k task)
    rfl

theorem moved_cancel (g : SubscriptionGuards) (k : Nat) : Moved k g (g.cancel k) := by
  obtain hsame | ⟨task, filter, o, hk, -, -, hcancel⟩ := g.cancel_cases k
  · rw [hsame]
    exact moved_refl k g
  · rw [hcancel]
    refine moved_set hk ?_ (tasks_leave (g.modifyGuard o fun guard => guard.withdraw k) k task)
    rfl

/-- A new task enters `hold`. -/
theorem tasks_hold (g : SubscriptionGuards) (filters : List String) :
    ∃ task, (g.hold filters).tasks = g.tasks ++ [task] ∧
      task.entries.map Prod.fst = sortedSet filters := by
  obtain ⟨-, htasks⟩ := registerAll_frame g (sortedSet filters)
  have hfst := map_fst_registerAll g (sortedSet filters)
  unfold SubscriptionGuards.hold
  dsimp only
  generalize g.registerAll (sortedSet filters) = result at htasks hfst ⊢
  obtain ⟨g₁, entries⟩ := result
  obtain ⟨acquired, stage, hadvance⟩ := tasks_advance
    { g₁ with tasks := g₁.tasks ++ [{ entries }] } g.tasks.length { entries }
  refine ⟨{ entries, acquired, stage }, ?_, hfst⟩
  dsimp only at htasks hadvance ⊢
  rw [hadvance, htasks, List.set_append_right _ _ (Nat.le_refl _), Nat.sub_self, List.set_cons_zero]

theorem Moved.isInside {k j : Nat} (h : Moved k g g') (hj : j ≠ k) : g'.isInside j = g.isInside j := by
  unfold SubscriptionGuards.isInside
  rw [h.others j hj]

end SubscriptionGuards

end Zmqtt
