/-
  `PacketIdPool` (`_internal/state.py`): the allocator of packet ids in 1..65535.

  The search loop of `acquire` runs over the 65535 ids in cyclic order, so it needs at
  most 65535 steps when one of them is free (`search_spec`).

  The `while` loop itself has no bound. `Loop` gives its runs that end, `Call` the calls
  of `acquire` that return or raise, and `Reached` the pools that calls of `acquire` and
  `release` lead to. `acquire_reached`: from each of them a call of `acquire` ends, in one
  way, and it raises exactly when all ids are in use.
-/
import Mathlib.Tactic
import Mathlib.Data.Int.Interval

namespace Zmqtt

structure PacketIdPool where
  next : Int := 1
  inUse : Finset Int := ∅

namespace PacketIdPool

/-- `while self._next in self._in_use: self._next = self._next % 65535 + 1`, with the
    number of iterations left. -/
def search (inUse : Finset Int) : Nat → Int → Int
  | 0, next => next
  | k + 1, next => if next ∈ inUse then search inUse k (next % 65535 + 1) else next

/-- `acquire`; `none` is the `RuntimeError` "All 65535 packet IDs are in use". -/
def acquire (pool : PacketIdPool) : Option (Int × PacketIdPool) :=
  if pool.inUse.card ≥ 65535 then none
  else
    let pid := search pool.inUse 65535 pool.next
    some (pid, ⟨pid % 65535 + 1, insert pid pool.inUse⟩)

/-- `release`. -/
def release (pool : PacketIdPool) (pid : Int) : PacketIdPool :=
  ⟨min pool.next pid, pool.inUse.erase pid⟩

/-- The ids of the format. -/
def InRange (pid : Int) : Prop := 1 ≤ pid ∧ pid ≤ 65535

/-- The search ends at a free id when one lies within the iterations left. -/
theorem search_of_free {inUse : Finset Int} {k : Nat} {next : Int} (hn : InRange next)
    (hfree : ∃ j : Nat, j < k ∧ (next - 1 + j) % 65535 + 1 ∉ inUse) :
    search inUse k next ∉ inUse ∧ InRange (search inUse k next) := by
  induction k generalizing next with
  | zero =>
    obtain ⟨j, hj, -⟩ := hfree
    omega
  | succ k ih =>
    obtain ⟨hlo, hhi⟩ := hn
    rw [search]
    by_cases hmem : next ∈ inUse
    · rw [if_pos hmem]
      refine ih ⟨by omega, by omega⟩ ?_
      obtain ⟨j, hj, hnot⟩ := hfree
      have hj0 : j ≠ 0 := by
        rintro rfl
        have he : (next - 1 + ((0 : Nat) : Int)) % 65535 + 1 = next := by omega
        apply hnot
        rw [he]
        exact hmem
      refine ⟨j - 1, by omega, ?_⟩
      have he : (next % 65535 + 1 - 1 + ((j - 1 : Nat) : Int)) % 65535 + 1 =
          (next - 1 + (j : Int)) % 65535 + 1 := by omega
      rw [he]
      exact hnot
    · rw [if_neg hmem]
      exact ⟨hmem, hlo, hhi⟩

/-- Less than 65535 ids in use leave one free. -/
theorem exists_free {inUse : Finset Int} (hcard : inUse.card < 65535) :
    ∃ pid, InRange pid ∧ pid ∉ inUse := by
  by_contra hno
  have hsub : Finset.Icc (1 : Int) 65535 ⊆ inUse := by
    intro pid hpid
    by_contra hnot
    exact hno ⟨pid, Finset.mem_Icc.1 hpid, hnot⟩
  have hle := Finset.card_le_card hsub
  rw [Int.card_Icc] at hle
  omega

theorem search_spec {inUse : Finset Int} {next : Int} (hcard : inUse.card < 65535)
    (hn : InRange next) :
    search inUse 65535 next ∉ inUse ∧ InRange (search inUse 65535 next) := by
  obtain ⟨pid, ⟨hlo, hhi⟩, hfree⟩ := exists_free hcard
  obtain ⟨nlo, nhi⟩ := hn
  -- the free id is reached after its cyclic distance from `next`
  refine search_of_free ⟨nlo, nhi⟩ ⟨((pid - next) % 65535).toNat, by omega, ?_⟩
  have he : (next - 1 + (((pid - next) % 65535).toNat : Int)) % 65535 + 1 = pid := by omega
  rw [he]
  exact hfree

/-- What `acquire` returns: a free id in range, added to the ids in use. -/
theorem acquire_eq_some {pool pool' : PacketIdPool} {pid : Int} (hn : InRange pool.next)
    (h : pool.acquire = some (pid, pool')) :
    pid ∉ pool.inUse ∧ InRange pid ∧ pool'.inUse = insert pid pool.inUse ∧
      InRange pool'.next := by
  rw [acquire] at h
  split at h
  · cases h
  · next hcard =>
    simp only [Option.some.injEq, Prod.mk.injEq] at h
    obtain ⟨rfl, rfl⟩ := h
    obtain ⟨hnot, hrange⟩ := search_spec (Nat.lt_of_not_le hcard) hn
    refine ⟨hnot, hrange, rfl, ?_⟩
    have := hrange.1
    constructor <;> dsimp only <;> omega

/-! ## Runs of the loop without a bound -/

/-- `while self._next in self._in_use` started with the cursor at `next` ends, and leaves
    it at `pid`. -/
inductive Loop (inUse : Finset Int) : Int → Int → Prop
  | done {next : Int} (free : next ∉ inUse) : Loop inUse next next
  | turn {next pid : Int} (used : next ∈ inUse)
      (rest : Loop inUse (next % 65535 + 1) pid) : Loop inUse next pid

/-- The text of the `RuntimeError`. -/
def allInUse : String := "All 65535 packet IDs are in use"

/-- A call of `acquire` that ends: its result or error, and the pool after it. -/
inductive Call (pool : PacketIdPool) : Except String Int → PacketIdPool → Prop
  | full (h : pool.inUse.card ≥ 65535) : Call pool (.error allInUse) pool
  | found {pid : Int} (h : ¬ pool.inUse.card ≥ 65535) (loop : Loop pool.inUse pool.next pid) :
      Call pool (.ok pid) ⟨pid % 65535 + 1, insert pid pool.inUse⟩

/-- The pools that calls of `acquire`, and of `release` with ids of the format, lead to. -/
inductive Reached : PacketIdPool → Prop
  | init : Reached {}
  | acquire {pool pool' : PacketIdPool} {r : Except String Int} (h : Reached pool)
      (call : Call pool r pool') : Reached pool'
  | release {pool : PacketIdPool} {pid : Int} (h : Reached pool) (hpid : InRange pid) :
      Reached (pool.release pid)

theorem Loop.unique {inUse : Finset Int} {next pid pid' : Int} (h : Loop inUse next pid)
    (h' : Loop inUse next pid') : pid = pid' := by
  induction h with
  | done free =>
    cases h' with
    | done => rfl
    | turn used => exact absurd used free
  | turn used _ ih =>
    cases h' with
    | done free => exact absurd used free
    | turn _ rest => exact ih rest

/-- Where the loop ends: at a free id, in range when it started in range. -/
theorem Loop.ends {inUse : Finset Int} {next pid : Int} (h : Loop inUse next pid)
    (hn : InRange next) : pid ∉ inUse ∧ InRange pid := by
  induction h with
  | done free => exact ⟨free, hn⟩
  | turn _ _ ih =>
    obtain ⟨hlo, hhi⟩ := hn
    exact ih ⟨by omega, by omega⟩

/-- A bounded search that finds a free id is a run of the loop. -/
theorem loop_search {inUse : Finset Int} {k : Nat} {next : Int}
    (hfree : search inUse k next ∉ inUse) : Loop inUse next (search inUse k next) := by
  induction k generalizing next with
  | zero => exact .done hfree
  | succ k ih =>
    rw [search] at hfree ⊢
    by_cases hmem : next ∈ inUse
    · rw [if_pos hmem] at hfree ⊢
      exact .turn hmem (ih hfree)
    · rw [if_neg hmem]
      exact .done hmem

/-- `acquire` computes the calls that end. -/
theorem call_iff {pool pool' : PacketIdPool} {r : Except String Int} (hn : InRange pool.next) :
    Call pool r pool' ↔
      match pool.acquire with
      | none => r = .error allInUse ∧ pool' = pool
      | some (pid, after) => r = .ok pid ∧ pool' = after := by
  rw [acquire]
  by_cases hcard : pool.inUse.card ≥ 65535
  · rw [if_pos hcard]
    constructor
    · intro h
      cases h with
      | full => exact ⟨rfl, rfl⟩
      | found hroom => exact absurd hcard hroom
    · rintro ⟨rfl, rfl⟩
      exact .full hcard
  · rw [if_neg hcard]
    have hloop := loop_search (search_spec (Nat.lt_of_not_le hcard) hn).1
    constructor
    · intro h
      cases h with
      | full hfull => exact absurd hfull hcard
      | found _ loop =>
        cases loop.unique hloop
        exact ⟨rfl, rfl⟩
    · rintro ⟨rfl, rfl⟩
      exact .found hcard hloop

/-- The cursor and the ids in use are ids of the format. -/
structure Wf (pool : PacketIdPool) : Prop where
  next : InRange pool.next
  inUse : pool.inUse ⊆ Finset.Icc 1 65535

theorem Wf.call {pool pool' : PacketIdPool} {r : Except String Int} (h : pool.Wf)
    (call : Call pool r pool') : pool'.Wf := by
  cases call with
  | full => exact h
  | found _ loop =>
    obtain ⟨-, hlo, hhi⟩ := loop.ends h.next
    refine ⟨⟨by show 1 ≤ _ % 65535 + 1; omega, by show _ % 65535 + 1 ≤ 65535; omega⟩, ?_⟩
    exact Finset.insert_subset (Finset.mem_Icc.2 ⟨hlo, hhi⟩) h.inUse

theorem Wf.release {pool : PacketIdPool} {pid : Int} (h : pool.Wf) (hpid : InRange pid) :
    (pool.release pid).Wf := by
  refine ⟨⟨le_min h.next.1 hpid.1, (min_le_right _ _).trans hpid.2⟩, ?_⟩
  exact (Finset.erase_subset _ _).trans h.inUse

theorem Reached.wf {pool : PacketIdPool} (h : Reached pool) : pool.Wf := by
  induction h with
  | init => exact ⟨⟨le_rfl, by decide⟩, Finset.empty_subset _⟩
  | acquire _ call ih => exact ih.call call
  | release _ hpid ih => exact ih.release hpid

/-- The count that `acquire` compares says that every id is in use. -/
theorem Wf.full_iff {pool : PacketIdPool} (h : pool.Wf) :
    pool.inUse.card ≥ 65535 ↔ pool.inUse = Finset.Icc 1 65535 := by
  constructor
  · intro hcard
    refine Finset.eq_of_subset_of_card_le h.inUse ?_
    rw [Int.card_Icc]
    omega
  · intro heq
    rw [heq, Int.card_Icc]
    omega

/-- **`acquire` ends and fails only when full.** From every pool that calls lead to, a call
    of `acquire` ends in one way; it raises, without a change, exactly when all 65535 ids
    are in use, and otherwise returns an id in range that was free and adds only that id. -/
theorem acquire_reached {pool : PacketIdPool} (h : Reached pool) :
    (∃! out : Except String Int × PacketIdPool, Call pool out.1 out.2) ∧
      (∀ pool', (∃ msg, Call pool (.error msg) pool') ↔
        pool.inUse = Finset.Icc 1 65535 ∧ pool' = pool) ∧
      ∀ pid pool', Call pool (.ok pid) pool' →
        pool.inUse ≠ Finset.Icc 1 65535 ∧ InRange pid ∧ pid ∉ pool.inUse ∧
          pool'.inUse = insert pid pool.inUse ∧ InRange pool'.next := by
  have hwf := h.wf
  refine ⟨?_, fun pool' => ?_, fun pid pool' call => ?_⟩
  · -- the computed call is the only one that ends
    cases hacq : pool.acquire with
    | none =>
      refine ⟨(.error allInUse, pool), ?_, fun out call => ?_⟩
      · exact (call_iff hwf.next).2 (by rw [hacq]; exact ⟨rfl, rfl⟩)
      · have hout := (call_iff hwf.next).1 call
        rw [hacq] at hout
        exact Prod.ext hout.1 hout.2
    | some found =>
      obtain ⟨pid, after⟩ := found
      refine ⟨(.ok pid, after), ?_, fun out call => ?_⟩
      · exact (call_iff hwf.next).2 (by rw [hacq]; exact ⟨rfl, rfl⟩)
      · have hout := (call_iff hwf.next).1 call
        rw [hacq] at hout
        exact Prod.ext hout.1 hout.2
  · constructor
    · rintro ⟨msg, call⟩
      cases call with
      | full hcard => exact ⟨hwf.full_iff.1 hcard, rfl⟩
    · rintro ⟨hall, rfl⟩
      exact ⟨allInUse, .full (hwf.full_iff.2 hall)⟩
  · have hafter := hwf.call call
    cases call with
    | found hroom loop =>
      obtain ⟨hfree, hrange⟩ := loop.ends hwf.next
      exact ⟨fun hall => hroom (hwf.full_iff.2 hall), hrange, hfree, rfl, hafter.next⟩

/-- Id 1 is released while 2 is in use, so the next call hands out 1 again. -/
theorem acquire_reached_reuse :
    InRange 1 ∧ (1 : Int) ∉ ({2} : Finset Int) ∧
      Call ⟨1, {2}⟩ (.ok 1) ⟨2, {1, 2}⟩ := by
  have h₁ : Call {} (.ok 1) ⟨2, {1}⟩ := .found (by decide) (.done (by decide))
  have h₂ : Call ⟨2, {1}⟩ (.ok 2) ⟨3, {2, 1}⟩ := .found (by decide) (.done (by decide))
  have h₃ : Call ⟨1, {2}⟩ (.ok 1) ⟨2, {1, 2}⟩ := .found (by decide) (.done (by decide))
  have hreached : Reached ⟨1, {2}⟩ :=
    @Reached.release _ 1 ((Reached.init.acquire h₁).acquire h₂) ⟨le_rfl, by decide⟩
  obtain ⟨-, hrange, hfree, -, -⟩ := (acquire_reached hreached).2.2 1 _ h₃
  exact ⟨hrange, hfree, h₃⟩

end PacketIdPool

end Zmqtt
