/-
  Byte buffers read by offset, and the exceptions a read can raise.

  A reader takes a buffer and an offset, as the `struct` and indexing
  operations of the source language do. Proofs about readers are stated on
  `buf.drop pos = bs ++ rest`: the bytes `bs` stand at `pos`, followed by `rest`.
-/
import Mathlib.Tactic

namespace Zmqtt

/-- A `bytes` value. -/
abbrev Bytes := List UInt8

/-- The exceptions a read or a write of bytes can raise. `valueError` carries its message;
    `valueErrorRepr text arg` is the `ValueError` whose message is `text` followed by
    `repr(arg)`. -/
inductive PyError where
  | valueError (msg : String)
  | valueErrorRepr (text arg : String)
  | unicodeDecodeError (data : Bytes)
  | structError
  | indexError
  | typeError
  deriving Repr, DecidableEq

/-- `isinstance(e, ValueError)`: `UnicodeDecodeError` is a subclass of `ValueError`. -/
def PyError.isValueError : PyError → Bool
  | .valueError _ | .valueErrorRepr _ _ | .unicodeDecodeError _ => true
  | .structError | .indexError | .typeError => false

/-! ## Sequencing -/

section Except

variable {ε α β : Type}

@[simp] theorem ok_bind (a : α) (f : α → Except ε β) : (Except.ok a >>= f) = f a := rfl

@[simp] theorem error_bind (e : ε) (f : α → Except ε β) :
    (Except.error e >>= f) = Except.error e := rfl

theorem bind_eq_ok {x : Except ε α} {f : α → Except ε β} {b : β} :
    (x >>= f) = .ok b ↔ ∃ a, x = .ok a ∧ f a = .ok b := by
  cases x with
  | error e => simp
  | ok a => simp

end Except

/-! ## Reading at an offset -/

section Drop

variable {buf bs rest : Bytes} {pos : Nat} {b : UInt8}

theorem drop_add_of_drop (h : buf.drop pos = bs ++ rest) :
    buf.drop (pos + bs.length) = rest := by
  rw [← List.drop_drop, h, List.drop_left]

theorem getElem?_of_drop (h : buf.drop pos = b :: rest) : buf[pos]? = some b := by
  have h0 : (buf.drop pos)[0]? = some b := by rw [h]; rfl
  rw [List.getElem?_drop] at h0
  simpa using h0

theorem drop_succ_of_drop (h : buf.drop pos = b :: rest) : buf.drop (pos + 1) = rest :=
  @drop_add_of_drop buf [b] rest pos h

end Drop

/-- `buf[pos]`. -/
def byteAt (buf : Bytes) (pos : Nat) : Except PyError UInt8 :=
  match buf[pos]? with
  | some b => .ok b
  | none => .error .indexError

theorem byteAt_of_drop {buf rest : Bytes} {pos : Nat} {b : UInt8}
    (h : buf.drop pos = b :: rest) : byteAt buf pos = .ok b := by
  simp [byteAt, getElem?_of_drop h]

/-! ## `struct` and `bytes` -/

/-- `struct.pack("!B", n)`. -/
def packB (n : Int) : Except PyError Bytes :=
  if 0 ≤ n ∧ n ≤ 255 then .ok [UInt8.ofNat n.toNat] else .error .structError

/-- `struct.pack("!H", n)`. -/
def packH (n : Int) : Except PyError Bytes :=
  if 0 ≤ n ∧ n ≤ 65535 then
    .ok [UInt8.ofNat (n.toNat / 256), UInt8.ofNat (n.toNat % 256)]
  else .error .structError

/-- `struct.pack("!I", n)`. -/
def packI (n : Int) : Except PyError Bytes :=
  if 0 ≤ n ∧ n ≤ 4294967295 then
    .ok [UInt8.ofNat (n.toNat / 16777216), UInt8.ofNat (n.toNat / 65536 % 256),
      UInt8.ofNat (n.toNat / 256 % 256), UInt8.ofNat (n.toNat % 256)]
  else .error .structError

/-- `bytes(ns)` on a sequence of integers. -/
def bytesOf : List Int → Except PyError Bytes
  | [] => .ok []
  | n :: ns =>
      if 0 ≤ n ∧ n ≤ 255 then do
        let bs ← bytesOf ns
        .ok (UInt8.ofNat n.toNat :: bs)
      else .error (.valueError "bytes must be in range(0, 256)")

/-- `struct.unpack_from("!H", buf, pos)`. -/
def unpackH (buf : Bytes) (pos : Nat) : Except PyError Nat :=
  match buf[pos]?, buf[pos + 1]? with
  | some a, some b => .ok (a.toNat * 256 + b.toNat)
  | _, _ => .error .structError

/-- `struct.unpack_from("!I", buf, pos)`. -/
def unpackI (buf : Bytes) (pos : Nat) : Except PyError Nat :=
  match buf[pos]?, buf[pos + 1]?, buf[pos + 2]?, buf[pos + 3]? with
  | some a, some b, some c, some d =>
      .ok (a.toNat * 16777216 + b.toNat * 65536 + c.toNat * 256 + d.toNat)
  | _, _, _, _ => .error .structError

theorem toNat_ofNat_of_lt {n : Nat} (h : n < 256) : (UInt8.ofNat n).toNat = n := by
  rw [UInt8.toNat_ofNat']
  exact Nat.mod_eq_of_lt h

theorem packB_eq_ok {n : Int} {bs : Bytes} (h : packB n = .ok bs) :
    ∃ b : UInt8, bs = [b] ∧ (b.toNat : Int) = n := by
  unfold packB at h
  split at h
  · next hn =>
    refine ⟨UInt8.ofNat n.toNat, by simpa using h.symm, ?_⟩
    rw [toNat_ofNat_of_lt (by omega)]
    omega
  · cases h

theorem packH_length {n : Int} {bs : Bytes} (h : packH n = .ok bs) : bs.length = 2 := by
  unfold packH at h
  split at h
  · simp only [Except.ok.injEq] at h; subst h; rfl
  · cases h

/-- `struct.unpack_from("!H", ...)` reads back what `struct.pack("!H", n)` wrote. -/
theorem unpackH_of_drop {buf bs rest : Bytes} {pos : Nat} {n : Int}
    (h : packH n = .ok bs) (hd : buf.drop pos = bs ++ rest) :
    ∃ k : Nat, unpackH buf pos = .ok k ∧ (k : Int) = n := by
  unfold packH at h
  split at h
  · next hn =>
    simp only [Except.ok.injEq] at h
    subst h
    have h0 := getElem?_of_drop (b := UInt8.ofNat (n.toNat / 256)) hd
    have h1 := getElem?_of_drop (b := UInt8.ofNat (n.toNat % 256)) (drop_succ_of_drop hd)
    refine ⟨n.toNat / 256 * 256 + n.toNat % 256, ?_, by omega⟩
    unfold unpackH
    rw [h0, h1]
    simp only [toNat_ofNat_of_lt (show n.toNat / 256 < 256 by omega),
      toNat_ofNat_of_lt (show n.toNat % 256 < 256 by omega)]
  · cases h

theorem packI_length {n : Int} {bs : Bytes} (h : packI n = .ok bs) : bs.length = 4 := by
  unfold packI at h
  split at h
  · simp only [Except.ok.injEq] at h; subst h; rfl
  · cases h

theorem unpackI_of_drop {buf bs rest : Bytes} {pos : Nat} {n : Int}
    (h : packI n = .ok bs) (hd : buf.drop pos = bs ++ rest) :
    ∃ k : Nat, unpackI buf pos = .ok k ∧ (k : Int) = n := by
  unfold packI at h
  split at h
  · next hn =>
    simp only [Except.ok.injEq] at h
    subst h
    have d1 := drop_succ_of_drop hd
    have d2 := drop_succ_of_drop d1
    have d3 := drop_succ_of_drop d2
    have h0 := getElem?_of_drop hd
    have h1 := getElem?_of_drop d1
    have h2 := getElem?_of_drop d2
    have h3 := getElem?_of_drop d3
    refine ⟨n.toNat, ?_, by omega⟩
    unfold unpackI
    rw [h0, h1, h2, h3]
    simp only [toNat_ofNat_of_lt (show n.toNat / 16777216 < 256 by omega),
      toNat_ofNat_of_lt (show n.toNat / 65536 % 256 < 256 by omega),
      toNat_ofNat_of_lt (show n.toNat / 256 % 256 < 256 by omega),
      toNat_ofNat_of_lt (show n.toNat % 256 < 256 by omega), Except.ok.injEq]
    omega
  · cases h

/-- `bytes(ns)` keeps every integer: reading the bytes back gives `ns`. -/
theorem map_toNat_bytesOf {ns : List Int} {bs : Bytes} (h : bytesOf ns = .ok bs) :
    bs.map (fun b => (b.toNat : Int)) = ns := by
  induction ns generalizing bs with
  | nil => simp only [bytesOf, Except.ok.injEq] at h; subst h; rfl
  | cons n ns ih =>
    unfold bytesOf at h
    split at h
    · next hn =>
      obtain ⟨bs', h', rfl⟩ := by simpa [bind_eq_ok] using h
      rw [List.map_cons, ih h', toNat_ofNat_of_lt (by omega)]
      congr 1
      omega
    · cases h

end Zmqtt
