/-
  Tables of concurrent tasks: a list whose positions name the tasks and in which one
  step replaces the task at one position.
-/
import Mathlib.Data.List.Perm.Basic
import Mathlib.Data.Set.Finite.Lattice
import Mathlib.Logic.Relation
import Mathlib.Tactic

namespace Zmqtt

section Tasks

variable {α β : Type} {xs : List α} {i : Nat} {x : α}

/-- The tasks before and after position `i`. -/
theorem split_at (h : xs[i]? = some x) :
    ∃ l r, xs = l ++ x :: r ∧ ∀ y, xs.set i y = l ++ y :: r := by
  obtain ⟨hi, rfl⟩ := List.getElem?_eq_some_iff.1 h
  refine ⟨xs.take i, xs.drop (i + 1), ?_, fun y => ?_⟩
  · rw [← List.drop_eq_getElem_cons hi, List.take_append_drop]
  · exact List.set_eq_take_append_cons_drop.trans (if_pos hi)

/-- The task at position `i` leaves. -/
theorem split_eraseIdx (h : xs[i]? = some x) :
    ∃ l r, xs = l ++ x :: r ∧ xs.take i = l ∧ xs.eraseIdx i = l ++ r := by
  obtain ⟨hi, rfl⟩ := List.getElem?_eq_some_iff.1 h
  refine ⟨xs.take i, xs.drop (i + 1), ?_, rfl, List.eraseIdx_eq_take_drop_succ ..⟩
  rw [← List.drop_eq_getElem_cons hi, List.take_append_drop]

/-- A task that comes to hold `b` adds it to what the tasks hold. -/
theorem filterMap_set_of_none {g : α → Option β} {y : α} {b : β} (h : xs[i]? = some x)
    (hx : g x = none) (hy : g y = some b) :
    ((xs.set i y).filterMap g).Perm (b :: xs.filterMap g) := by
  obtain ⟨l, r, rfl, hset⟩ := split_at h
  rw [hset, List.filterMap_append, List.filterMap_append, List.filterMap_cons_some hy,
    List.filterMap_cons_none hx]
  exact List.perm_middle

theorem filterMap_set_of_eq {g : α → Option β} {y : α} (h : xs[i]? = some x) (hy : g y = g x) :
    (xs.set i y).filterMap g = xs.filterMap g := by
  obtain ⟨l, r, rfl, hset⟩ := split_at h
  rw [hset, List.filterMap_append, List.filterMap_append, List.filterMap_cons, List.filterMap_cons,
    hy]

/-- A task of a table with one task more. -/
theorem getElem?_concat_cases {y : α} (h : (xs ++ [x])[i]? = some y) :
    xs[i]? = some y ∨ i = xs.length ∧ y = x := by
  rcases Nat.lt_or_ge i xs.length with hlt | hge
  · rw [List.getElem?_append_left hlt] at h
    exact Or.inl h
  · have hlt := (List.getElem?_eq_some_iff.1 h).1
    rw [List.length_append, List.length_singleton] at hlt
    obtain rfl : i = xs.length := by omega
    rw [List.getElem?_concat_length] at h
    exact Or.inr ⟨rfl, (Option.some.inj h).symm⟩

theorem forall_mem_set_iff {P : α → Prop} {y : α} (h : xs[i]? = some x) (hP : ∀ a ∈ xs, P a) :
    (∀ a ∈ xs.set i y, P a) ↔ P y := by
  have hi : i < xs.length := (List.getElem?_eq_some_iff.1 h).1
  refine ⟨fun hs => hs y (List.mem_set hi y), fun hy a ha => ?_⟩
  obtain ha | rfl := List.mem_or_eq_of_mem_set ha
  · exact hP a ha
  · exact hy

/-- Replacing one task changes a sum by the difference of the two. -/
theorem sum_map_set (g : α → Nat) (y : α) (hx : xs[i]? = some x) :
    ((xs.set i y).map g).sum + g x = (xs.map g).sum + g y := by
  obtain ⟨l, r, rfl, hset⟩ := split_at hx
  rw [hset]
  simp only [List.map_append, List.map_cons, List.sum_append, List.sum_cons]
  omega

theorem countP_set_of_get (q : α → Bool) (y : α) (hx : xs[i]? = some x) :
    (xs.set i y).countP q + (if q x then 1 else 0) = xs.countP q + if q y then 1 else 0 := by
  obtain ⟨l, r, rfl, hset⟩ := split_at hx
  rw [hset]
  simp only [List.countP_append, List.countP_cons]
  omega

theorem modify_of_get (f : α → α) (hx : xs[i]? = some x) : xs.modify i f = xs.set i (f x) := by
  have : Inhabited α := ⟨x⟩
  rw [List.modify_eq_set, hx, Option.getD_some]

end Tasks

/-! ## Tasks that wait for one another

A waits-for graph with a rank: who waits for a task that waits itself ranks below it. -/

section Waiting

variable {α β : Type} {waits : α → α → Prop} {rank : α → β}

theorem rank_lt_of_transGen [Preorder β] (h : ∀ a b c, waits a b → waits b c → rank a < rank b)
    {a b c : α} (hab : Relation.TransGen waits a b) (hbc : waits b c) : rank a < rank b := by
  induction hab generalizing c with
  | single hab => exact h _ _ _ hab hbc
  | tail _ hstep ih => exact lt_trans (ih hstep) (h _ _ _ hstep hbc)

/-- No cycle of waiting tasks. -/
theorem acyclic_of_rank [Preorder β] (h : ∀ a b c, waits a b → waits b c → rank a < rank b) (a : α) :
    ¬Relation.TransGen waits a a := by
  intro hcycle
  obtain ⟨b, hab, -⟩ := Relation.TransGen.head'_iff.1 hcycle
  exact lt_irrefl _ (rank_lt_of_transGen h hcycle hab)

/-- Among finitely many tasks, what a task waits for comes down to one that waits for nobody. -/
theorem exists_not_waiting [LinearOrder β] (h : ∀ a b c, waits a b → waits b c → rank a < rank b)
    {a : α} (hfin : {b | Relation.ReflTransGen waits a b}.Finite) :
    ∃ b, Relation.ReflTransGen waits a b ∧ ∀ c, ¬waits b c := by
  by_contra hall
  push Not at hall
  obtain ⟨b, hab, hmax⟩ := Set.exists_max_image _ rank hfin ⟨a, Relation.ReflTransGen.refl⟩
  obtain ⟨c, hbc⟩ := hall b hab
  have hac : Relation.ReflTransGen waits a c := hab.tail hbc
  obtain ⟨d, hcd⟩ := hall c hac
  exact absurd (hmax c hac) (not_le_of_gt (h b c d hbc hcd))

end Waiting

end Zmqtt
