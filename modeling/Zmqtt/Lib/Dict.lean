/-
  Insertion-ordered dictionaries, as association lists: `d[k] = v` replaces the
  value of an existing key in place and appends a new key at the end.
-/
import Mathlib.Tactic

namespace Zmqtt

/-- A dictionary with its items in insertion order. -/
abbrev Dict (κ ν : Type) := List (κ × ν)

namespace Dict

variable {κ ν : Type}

/-- The keys of `d`, in insertion order. -/
def keys (d : Dict κ ν) : List κ := d.map Prod.fst

@[simp] theorem keys_nil : keys ([] : Dict κ ν) = [] := rfl

@[simp] theorem keys_cons (k : κ) (v : ν) (d : Dict κ ν) : keys ((k, v) :: d) = k :: keys d := rfl

theorem mem_keys_of_mem {d : Dict κ ν} {k : κ} {v : ν} (h : (k, v) ∈ d) : k ∈ keys d :=
  List.mem_map.2 ⟨(k, v), h, rfl⟩

variable [DecidableEq κ]

/-- `d.get(k)`. -/
def get? (d : Dict κ ν) (k : κ) : Option ν :=
  match d with
  | [] => none
  | (k', v) :: d => if k' = k then some v else get? d k

/-- `d[k] = v`. -/
def set (d : Dict κ ν) (k : κ) (v : ν) : Dict κ ν :=
  match d with
  | [] => [(k, v)]
  | (k', v') :: d => if k' = k then (k, v) :: d else (k', v') :: set d k v

/-- `d.pop(k, None)`, the dictionary left. -/
def pop (d : Dict κ ν) (k : κ) : Dict κ ν :=
  d.filter fun item => item.1 ≠ k

@[simp] theorem get?_nil (k : κ) : get? ([] : Dict κ ν) k = none := rfl

theorem get?_cons (k k' : κ) (v : ν) (d : Dict κ ν) :
    get? ((k', v) :: d) k = if k' = k then some v else get? d k := rfl

theorem get?_eq_none_iff (d : Dict κ ν) (k : κ) : get? d k = none ↔ k ∉ keys d := by
  induction d with
  | nil => simp
  | cons item d ih =>
    obtain ⟨k', v⟩ := item
    rw [get?_cons, keys_cons, List.mem_cons]
    by_cases h : k' = k
    · simp [h]
    · rw [if_neg h, ih]
      constructor
      · rintro hk (rfl | hk')
        · exact h rfl
        · exact hk hk'
      · intro hk hk'; exact hk (Or.inr hk')

/-- Setting a new key appends it. -/
theorem set_of_not_mem {d : Dict κ ν} {k : κ} (v : ν) (h : k ∉ keys d) :
    set d k v = d ++ [(k, v)] := by
  induction d with
  | nil => rfl
  | cons item d ih =>
    obtain ⟨k', v'⟩ := item
    rw [keys_cons, List.mem_cons, not_or] at h
    rw [set, if_neg (fun he => h.1 he.symm), ih h.2]
    rfl

/-- Setting the last key again replaces its value. -/
theorem set_append_singleton {d : Dict κ ν} {k : κ} (v w : ν) (h : k ∉ keys d) :
    set (d ++ [(k, v)]) k w = d ++ [(k, w)] := by
  induction d with
  | nil => simp [set]
  | cons item d ih =>
    obtain ⟨k', v'⟩ := item
    rw [keys_cons, List.mem_cons, not_or] at h
    rw [List.cons_append, set, if_neg (fun he => h.1 he.symm), ih h.2]
    rfl

theorem get?_append_singleton {d : Dict κ ν} {k : κ} (v : ν) (h : k ∉ keys d) :
    get? (d ++ [(k, v)]) k = some v := by
  induction d with
  | nil => simp [get?_cons]
  | cons item d ih =>
    obtain ⟨k', v'⟩ := item
    rw [keys_cons, List.mem_cons, not_or] at h
    rw [List.cons_append, get?_cons, if_neg (fun he => h.1 he.symm), ih h.2]

theorem get?_set (d : Dict κ ν) (k k' : κ) (v : ν) :
    get? (set d k v) k' = if k = k' then some v else get? d k' := by
  induction d with
  | nil => rfl
  | cons item d ih =>
    obtain ⟨k₀, v₀⟩ := item
    rw [set]
    by_cases h : k₀ = k
    · subst h
      rw [if_pos rfl, get?_cons, get?_cons]
      split <;> rfl
    · rw [if_neg h, get?_cons, ih, get?_cons]
      by_cases h0 : k₀ = k'
      · rw [if_pos h0, if_pos h0, if_neg]
        rintro rfl
        exact h h0
      · rw [if_neg h0, if_neg h0]

theorem get?_pop (d : Dict κ ν) (k k' : κ) :
    get? (pop d k) k' = if k = k' then none else get? d k' := by
  induction d with
  | nil => simp [pop]
  | cons item d ih =>
    obtain ⟨k₀, v₀⟩ := item
    rw [pop, List.filter_cons]
    by_cases h : k₀ = k
    · subst h
      have hcond : ¬ (decide ((k₀, v₀).1 ≠ k₀) = true) := by simp
      rw [if_neg hcond, get?_cons]
      refine ih.trans ?_
      split <;> rfl
    · have hcond : decide ((k₀, v₀).1 ≠ k) = true := by simp [h]
      rw [if_pos hcond, get?_cons, get?_cons]
      by_cases h0 : k₀ = k'
      · rw [if_pos h0, if_pos h0, if_neg]
        rintro rfl
        exact h h0
      · rw [if_neg h0, if_neg h0]
        exact ih

theorem mem_set {d : Dict κ ν} {k : κ} {v : ν} {item : κ × ν} (h : item ∈ set d k v) :
    item ∈ d ∨ item = (k, v) := by
  induction d with
  | nil => exact Or.inr (List.mem_singleton.1 h)
  | cons first d ih =>
    obtain ⟨k', v'⟩ := first
    rw [set] at h
    split at h
    · rcases List.mem_cons.1 h with h | h
      · exact Or.inr h
      · exact Or.inl (List.mem_cons_of_mem _ h)
    · rcases List.mem_cons.1 h with h | h
      · rw [h]
        exact Or.inl List.mem_cons_self
      · exact (ih h).imp_left (List.mem_cons_of_mem _)

theorem mem_of_get? {d : Dict κ ν} {k : κ} {v : ν} (h : get? d k = some v) : (k, v) ∈ d := by
  induction d with
  | nil => cases h
  | cons item d ih =>
    obtain ⟨k', v'⟩ := item
    rw [get?_cons] at h
    split at h
    · next he =>
      obtain rfl := Option.some.inj h
      rw [he]
      exact List.mem_cons_self
    · exact List.mem_cons_of_mem _ (ih h)

/-- Under distinct keys, the items are what `get?` finds. -/
theorem mem_iff_get? {d : Dict κ ν} (hd : (keys d).Nodup) (k : κ) (v : ν) :
    (k, v) ∈ d ↔ get? d k = some v := by
  refine ⟨fun h => ?_, mem_of_get?⟩
  induction d with
  | nil => cases h
  | cons item d ih =>
    obtain ⟨k', v'⟩ := item
    rw [keys_cons, List.nodup_cons] at hd
    rw [get?_cons]
    rcases List.mem_cons.1 h with he | hm
    · cases he
      rw [if_pos rfl]
    · have hne : k' ≠ k := by
        rintro rfl
        exact hd.1 (mem_keys_of_mem hm)
      rw [if_neg hne]
      exact ih hd.2 hm

theorem nodup_keys_pop {d : Dict κ ν} (hd : (keys d).Nodup) (k : κ) : (keys (pop d k)).Nodup := by
  unfold keys pop at *
  exact hd.sublist (List.Sublist.map _ List.filter_sublist)

theorem not_mem_keys_pop (d : Dict κ ν) (k : κ) : k ∉ keys (pop d k) := by
  rw [← get?_eq_none_iff, get?_pop, if_pos rfl]

theorem keys_set_of_not_mem {d : Dict κ ν} {k : κ} (v : ν) (h : k ∉ keys d) :
    keys (set d k v) = keys d ++ [k] := by
  rw [set_of_not_mem v h, keys, List.map_append]
  rfl

/-- Setting an existing key keeps the keys. -/
theorem keys_set_of_mem {d : Dict κ ν} {k : κ} (v : ν) (h : k ∈ keys d) :
    keys (set d k v) = keys d := by
  induction d with
  | nil => cases h
  | cons item d ih =>
    obtain ⟨k', v'⟩ := item
    rw [set]
    by_cases he : k' = k
    · rw [if_pos he, keys_cons, keys_cons, he]
    · rw [keys_cons, List.mem_cons] at h
      rw [if_neg he, keys_cons, keys_cons, ih (h.resolve_left (Ne.symm he))]

theorem mem_keys_set {d : Dict κ ν} {k k' : κ} {v : ν} :
    k' ∈ keys (set d k v) ↔ k' ∈ keys d ∨ k' = k := by
  by_cases h : k ∈ keys d
  · rw [keys_set_of_mem v h]
    refine ⟨Or.inl, ?_⟩
    rintro (hk | rfl)
    · exact hk
    · exact h
  · rw [keys_set_of_not_mem v h, List.mem_append, List.mem_singleton]

/-- The keys are the popped key and those left. -/
theorem keys_perm_pop {d : Dict κ ν} {k : κ} (hd : (keys d).Nodup) (h : k ∈ keys d) :
    (keys d).Perm (k :: keys (pop d k)) := by
  have herase : keys (pop d k) = (keys d).erase k := by
    rw [hd.erase_eq_filter, keys, keys, pop, List.filter_map]
    congr 2
    funext item
    simp [Bool.beq_eq_decide_eq, bne, Function.comp]
  rw [herase]
  exact List.perm_cons_erase h

theorem nodup_keys_set {d : Dict κ ν} (hd : (keys d).Nodup) (k : κ) (v : ν) :
    (keys (set d k v)).Nodup := by
  by_cases h : k ∈ keys d
  · rw [keys_set_of_mem v h]
    exact hd
  · rw [keys_set_of_not_mem v h, List.nodup_append]
    refine ⟨hd, List.nodup_singleton k, fun a ha b hb hab => h ?_⟩
    rw [← List.mem_singleton.1 hb, ← hab]
    exact ha

/-- Of two writes to a key the later one counts. -/
theorem set_set (d : Dict κ ν) (k : κ) (v w : ν) : set (set d k v) k w = set d k w := by
  induction d with
  | nil => simp [set]
  | cons item d ih =>
    obtain ⟨k', v'⟩ := item
    by_cases h : k' = k
    · rw [set, if_pos h, set, if_pos rfl, set, if_pos h]
    · rw [set, if_neg h, set, if_neg h, ih, set, if_neg h]

/-- Writing the value that is there changes nothing. -/
theorem set_of_get? {d : Dict κ ν} {k : κ} {v : ν} (h : get? d k = some v) : set d k v = d := by
  induction d with
  | nil => cases h
  | cons item d ih =>
    obtain ⟨k', v'⟩ := item
    rw [get?_cons] at h
    rw [set]
    by_cases he : k' = k
    · rw [if_pos he] at h ⊢
      rw [he, Option.some.inj h]
    · rw [if_neg he] at h ⊢
      rw [ih h]

/-- Popping a key that is not there changes nothing. -/
theorem pop_of_not_mem {d : Dict κ ν} {k : κ} (h : k ∉ keys d) : pop d k = d := by
  refine List.filter_eq_self.2 fun item hitem => decide_eq_true fun he => h ?_
  rw [← he]
  exact List.mem_map_of_mem hitem

/-- Popping a new key undoes its write. -/
theorem pop_set_of_not_mem {d : Dict κ ν} {k : κ} (v : ν) (h : k ∉ keys d) :
    pop (set d k v) k = d := by
  rw [set_of_not_mem v h, pop, List.filter_append]
  refine (congrArg₂ (· ++ ·) (pop_of_not_mem h) ?_).trans (List.append_nil d)
  simp

theorem mem_keys_of_get? {d : Dict κ ν} {k : κ} {v : ν} (h : get? d k = some v) : k ∈ keys d :=
  mem_keys_of_mem (mem_of_get? h)

end Dict

end Zmqtt
