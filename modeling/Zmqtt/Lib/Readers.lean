/-
  Readers at an offset: a reader takes a buffer and a position, and gives a value and the number
  of bytes it takes.

  A reader is local when the bytes it takes lie inside the buffer and it gives the same in every
  buffer that has the same bytes there. So a local reader that succeeds before a cut of the
  buffer reads nothing behind it. A read slips when it raises another exception than a
  `ValueError`, which a fixed width does outside the buffer.
-/
import Zmqtt.Lib.Bytes

namespace Zmqtt

/-! ## Equal parts of two buffers -/

/-- The buffers have the same bytes from position `a` up to `b`. -/
def AgreeOn (buf buf' : Bytes) (a b : Nat) : Prop := ∀ i, a ≤ i → i < b → buf'[i]? = buf[i]?

section AgreeOn

variable {buf buf' : Bytes} {a b : Nat}

theorem AgreeOn.mono {a' b' : Nat} (h : AgreeOn buf buf' a b) (ha : a ≤ a') (hb : b' ≤ b) :
    AgreeOn buf buf' a' b' := fun i hi hi' => h i (by omega) (by omega)

theorem AgreeOn.symm (h : AgreeOn buf buf' a b) : AgreeOn buf' buf a b :=
  fun i hi hi' => (h i hi hi').symm

/-- A cut agrees with the buffer up to the cut. -/
theorem agreeOn_take (buf : Bytes) (a b : Nat) : AgreeOn buf (buf.take b) a b := by
  intro i _ hi
  rw [List.getElem?_take, if_pos hi]

theorem AgreeOn.le_length (h : AgreeOn buf buf' a b) (hab : a < b) (hb : b ≤ buf.length) :
    b ≤ buf'.length := by
  have hlast := h (b - 1) (by omega) (by omega)
  rw [List.getElem?_eq_getElem (show b - 1 < buf.length by omega)] at hlast
  have hlt := (List.getElem?_eq_some_iff.1 hlast).1
  omega

theorem AgreeOn.slice (h : AgreeOn buf buf' a b) {n : Nat} (hn : a + n ≤ b) :
    (buf'.drop a).take n = (buf.drop a).take n := by
  refine List.ext_getElem? fun i => ?_
  rw [List.getElem?_take, List.getElem?_take, List.getElem?_drop, List.getElem?_drop]
  split
  · exact h (a + i) (by omega) (by omega)
  · rfl

end AgreeOn

/-! ## Fixed widths -/

section Fixed

variable {buf buf' : Bytes} {pos : Nat}

theorem lt_of_byteAt {b : UInt8} (h : byteAt buf pos = .ok b) : pos < buf.length := by
  unfold byteAt at h
  split at h
  · next hget => exact (List.getElem?_eq_some_iff.1 hget).1
  · cases h

theorem le_of_unpackH {n : Nat} (h : unpackH buf pos = .ok n) : pos + 2 ≤ buf.length := by
  unfold unpackH at h
  split at h
  · next hget =>
    have hlt := (List.getElem?_eq_some_iff.1 hget).1
    omega
  · cases h

theorem le_of_unpackI {n : Nat} (h : unpackI buf pos = .ok n) : pos + 4 ≤ buf.length := by
  unfold unpackI at h
  split at h
  · next hget =>
    have hlt := (List.getElem?_eq_some_iff.1 hget).1
    omega
  · cases h

theorem exists_byteAt (h : pos < buf.length) : ∃ b, byteAt buf pos = .ok b := by
  refine ⟨buf[pos], ?_⟩
  unfold byteAt
  rw [List.getElem?_eq_getElem h]

theorem exists_unpackH (h : pos + 2 ≤ buf.length) : ∃ n, unpackH buf pos = .ok n := by
  unfold unpackH
  rw [List.getElem?_eq_getElem (show pos < buf.length by omega),
    List.getElem?_eq_getElem (show pos + 1 < buf.length by omega)]
  exact ⟨_, rfl⟩

theorem exists_unpackI (h : pos + 4 ≤ buf.length) : ∃ n, unpackI buf pos = .ok n := by
  unfold unpackI
  rw [List.getElem?_eq_getElem (show pos < buf.length by omega),
    List.getElem?_eq_getElem (show pos + 1 < buf.length by omega),
    List.getElem?_eq_getElem (show pos + 2 < buf.length by omega),
    List.getElem?_eq_getElem (show pos + 3 < buf.length by omega)]
  exact ⟨_, rfl⟩

theorem byteAt_congr (h : AgreeOn buf buf' pos (pos + 1)) : byteAt buf' pos = byteAt buf pos := by
  unfold byteAt
  rw [h pos (by omega) (by omega)]

theorem unpackH_congr (h : AgreeOn buf buf' pos (pos + 2)) : unpackH buf' pos = unpackH buf pos := by
  unfold unpackH
  rw [h pos (by omega) (by omega), h (pos + 1) (by omega) (by omega)]

theorem unpackI_congr (h : AgreeOn buf buf' pos (pos + 4)) : unpackI buf' pos = unpackI buf pos := by
  unfold unpackI
  rw [h pos (by omega) (by omega), h (pos + 1) (by omega) (by omega),
    h (pos + 2) (by omega) (by omega), h (pos + 3) (by omega) (by omega)]

end Fixed

/-! ## Local readers -/

/-- A reader of values of type `α`. -/
abbrev OffsetReader (α : Type) := Bytes → Nat → Except PyError (α × Nat)

/-- The reader looks at the bytes it takes only. -/
structure OffsetReader.IsLocal {α : Type} (read : OffsetReader α) : Prop where
  inside : ∀ {buf pos a n}, read buf pos = .ok (a, n) → pos + n ≤ buf.length
  agree : ∀ {buf buf' pos a n}, read buf pos = .ok (a, n) → AgreeOn buf buf' pos (pos + n) →
    read buf' pos = .ok (a, n)

namespace OffsetReader

variable {α β : Type} {read : OffsetReader α}

/-- What a local reader reads before a cut, it reads in the whole buffer. -/
theorem IsLocal.of_take (h : read.IsLocal) {buf : Bytes} {pos k : Nat} {a : α} {n : Nat}
    (hread : read (buf.take k) pos = .ok (a, n)) :
    read buf pos = .ok (a, n) ∧ pos + n ≤ k := by
  have hinside := h.inside hread
  rw [List.length_take] at hinside
  refine ⟨h.agree hread ((agreeOn_take buf pos k).symm.mono (Nat.le_refl _) (by omega)), by omega⟩

/-- The value read is changed afterwards. -/
theorem IsLocal.map (h : read.IsLocal) (f : α → β) :
    IsLocal fun buf pos => read buf pos >>= fun r => .ok (f r.1, r.2) := by
  refine ⟨fun hread => ?_, fun hread hagree => ?_⟩
  · obtain ⟨r, hr, heq⟩ := bind_eq_ok.mp hread
    cases heq
    exact h.inside hr
  · obtain ⟨r, hr, heq⟩ := bind_eq_ok.mp hread
    cases heq
    rw [h.agree hr hagree, ok_bind]

/-- Two readers, one after the other. -/
theorem IsLocal.seq {read' : OffsetReader β} (h : read.IsLocal) (h' : read'.IsLocal) :
    IsLocal fun buf pos => read buf pos >>= fun r => read' buf (pos + r.2) >>= fun r' =>
      .ok ((r.1, r'.1), r.2 + r'.2) := by
  refine ⟨fun hread => ?_, fun hread hagree => ?_⟩
  · obtain ⟨r, hr, hread⟩ := bind_eq_ok.mp hread
    obtain ⟨r', hr', heq⟩ := bind_eq_ok.mp hread
    cases heq
    have hinside := h'.inside hr'
    omega
  · obtain ⟨r, hr, hread⟩ := bind_eq_ok.mp hread
    obtain ⟨r', hr', heq⟩ := bind_eq_ok.mp hread
    cases heq
    rw [h.agree hr (hagree.mono (Nat.le_refl _) (by omega)), ok_bind,
      h'.agree hr' (hagree.mono (by omega) (by omega)), ok_bind]

end OffsetReader

/-! ## Exceptions other than `ValueError` -/

/-- The exception that is raised is no `ValueError`. -/
def Slips {α : Type} (x : Except PyError α) : Prop := ∃ e, x = .error e ∧ e.isValueError = false

section Slips

variable {α β : Type} {buf : Bytes} {pos : Nat}

theorem not_slips_ok (a : α) : ¬ Slips (.ok a : Except PyError α) := by
  rintro ⟨e, he, -⟩
  cases he

theorem slips_error {e : PyError} : Slips (.error e : Except PyError α) ↔ e.isValueError = false :=
  ⟨fun ⟨_, he, h⟩ => by cases he; exact h, fun h => ⟨e, rfl, h⟩⟩

/-- A sequence slips in its first part, or in what comes after it. -/
theorem slips_bind {x : Except PyError α} {f : α → Except PyError β} :
    Slips (x >>= f) ↔ Slips x ∨ ∃ a, x = .ok a ∧ Slips (f a) := by
  cases x with
  | error e => simp [slips_error]
  | ok a => simp [not_slips_ok]

theorem slips_byteAt : Slips (byteAt buf pos) ↔ buf.length ≤ pos := by
  unfold byteAt
  split
  · next hget =>
    have hlt := (List.getElem?_eq_some_iff.1 hget).1
    exact iff_of_false (not_slips_ok _) (by omega)
  · next hget => exact iff_of_true (slips_error.2 rfl) (List.getElem?_eq_none_iff.1 hget)

theorem slips_unpackH : Slips (unpackH buf pos) ↔ buf.length < pos + 2 := by
  unfold unpackH
  split
  · next hget =>
    have hlt := (List.getElem?_eq_some_iff.1 hget).1
    exact iff_of_false (not_slips_ok _) (by omega)
  · next hnot =>
    refine iff_of_true (slips_error.2 rfl) ?_
    by_contra hlt
    exact hnot _ _ (List.getElem?_eq_getElem (by omega)) (List.getElem?_eq_getElem (by omega))

theorem slips_unpackI : Slips (unpackI buf pos) ↔ buf.length < pos + 4 := by
  unfold unpackI
  split
  · next hget =>
    have hlt := (List.getElem?_eq_some_iff.1 hget).1
    exact iff_of_false (not_slips_ok _) (by omega)
  · next hnot =>
    refine iff_of_true (slips_error.2 rfl) ?_
    by_contra hlt
    exact hnot _ _ _ _ (List.getElem?_eq_getElem (by omega)) (List.getElem?_eq_getElem (by omega))
      (List.getElem?_eq_getElem (by omega)) (List.getElem?_eq_getElem (by omega))

end Slips

end Zmqtt
