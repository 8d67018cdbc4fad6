/-
  Writers with a bound: `Fits write m` says that a writer raises nothing and gives `m` bytes at
  most.

  A value that was read from a buffer is in the range of the writer of its width, and a sequence
  of writers that fit, fits.
-/
import Zmqtt.Lib.Readers

namespace Zmqtt

/-- The writer gives at most `m` bytes. -/
def Fits (write : Except PyError Bytes) (m : Nat) : Prop := ∃ bs, write = .ok bs ∧ bs.length ≤ m

section Fits

variable {write : Except PyError Bytes} {f : Bytes → Except PyError Bytes} {bs : Bytes} {m k : Nat}

theorem fits_ok (h : bs.length ≤ m) : Fits (.ok bs) m := ⟨bs, rfl, h⟩

theorem Fits.mono (h : Fits write m) (hle : m ≤ k) : Fits write k := by
  obtain ⟨bs, hbs, hlen⟩ := h
  exact ⟨bs, hbs, by omega⟩

/-- A part fits, and the rest fits whatever the part is. -/
theorem Fits.bind (h : Fits write m) (hf : ∀ bs, bs.length ≤ m → Fits (f bs) k) :
    Fits (write >>= f) k := by
  obtain ⟨bs, hbs, hlen⟩ := h
  rw [hbs, ok_bind]
  exact hf bs hlen

/-- Two parts, one after the other. -/
theorem Fits.append {write' : Except PyError Bytes} (h : Fits write m) (h' : Fits write' k) :
    Fits (write >>= fun bs => write' >>= fun bs' => .ok (bs ++ bs')) (m + k) := by
  refine h.bind fun bs hlen => h'.bind fun bs' hlen' => fits_ok ?_
  rw [List.length_append]
  omega

end Fits

/-! ## Fixed widths -/

section Fixed

variable {n : Int}

theorem fits_packB (h : 0 ≤ n ∧ n ≤ 255) : Fits (packB n) 1 := by
  unfold packB
  rw [if_pos h]
  exact fits_ok (Nat.le_refl _)

theorem fits_packH (h : 0 ≤ n ∧ n ≤ 65535) : Fits (packH n) 2 := by
  unfold packH
  rw [if_pos h]
  exact fits_ok (Nat.le_refl _)

theorem fits_packI (h : 0 ≤ n ∧ n ≤ 4294967295) : Fits (packI n) 4 := by
  unfold packI
  rw [if_pos h]
  exact fits_ok (Nat.le_refl _)

theorem fits_bytesOf {ns : List Int} (h : ∀ n ∈ ns, 0 ≤ n ∧ n ≤ 255) : Fits (bytesOf ns) ns.length := by
  induction ns with
  | nil => exact fits_ok (Nat.le_refl _)
  | cons n ns ih =>
    unfold bytesOf
    rw [if_pos (h n List.mem_cons_self)]
    refine (ih fun k hk => h k (List.mem_cons_of_mem _ hk)).bind fun bs hlen => fits_ok ?_
    rw [List.length_cons, List.length_cons]
    omega

end Fixed

/-! ## The range of a read -/

section Range

variable {buf : Bytes} {pos n : Nat}

theorem byte_range (b : UInt8) : (0 : Int) ≤ b.toNat ∧ (b.toNat : Int) ≤ 255 := by
  have hlt := b.toNat_lt
  omega

theorem unpackH_range (h : unpackH buf pos = .ok n) : (0 : Int) ≤ n ∧ (n : Int) ≤ 65535 := by
  unfold unpackH at h
  split at h
  · next a b _ _ =>
    have ha := a.toNat_lt
    have hb := b.toNat_lt
    simp only [Except.ok.injEq] at h
    omega
  · cases h

theorem unpackI_range (h : unpackI buf pos = .ok n) : (0 : Int) ≤ n ∧ (n : Int) ≤ 4294967295 := by
  unfold unpackI at h
  split at h
  · next a b c d _ _ _ _ =>
    have ha := a.toNat_lt
    have hb := b.toNat_lt
    have hc := c.toNat_lt
    have hd := d.toNat_lt
    simp only [Except.ok.injEq] at h
    omega
  · cases h

end Range

end Zmqtt
