/-
  Wire helpers (`_internal/packets/_wire.py`): variable-length integers, UTF-8
  strings and length-prefixed binary data.

  `encodeVarint` and `decodeVarint` follow the two loops of the source. The
  reading lemmas (`decodeVarint_of_drop`, `decodeStr_of_drop`,
  `decodeBytesField_of_drop`) say that what an encoder wrote at an offset is
  read back there, whatever bytes follow.

  A Lean string is a sequence of Unicode scalar values, so it holds exactly the
  `str` values that `s.encode("utf-8")` accepts.
-/
import Zmqtt.Lib.Bytes

namespace Zmqtt

/-- `_MAX_MQTT_VARINT`. -/
def maxMqttVarint : Nat := 268435455

/-- The `while True` loop of `encode_varint`: seven bits a byte, low bits first, the
    top bit set on every byte but the last. -/
def encodeVarintLoop (value : Nat) : Bytes :=
  if h : value / 128 = 0 then [UInt8.ofNat (value % 128)]
  else UInt8.ofNat (value % 128 + 128) :: encodeVarintLoop (value / 128)
termination_by value
decreasing_by omega

/-- `encode_varint`. -/
def encodeVarint (value : Int) : Except PyError Bytes :=
  if value < 0 ∨ value > maxMqttVarint then
    .error (.valueError ("Value " ++ toString value ++ " out of varint range"))
  else .ok (encodeVarintLoop value.toNat)

/-- The `for i in range(4)` loop of `decode_varint`, with `k` iterations left. -/
def decodeVarintLoop (buf : Bytes) (offset : Nat) :
    (k i multiplier value : Nat) → Except PyError (Nat × Nat)
  | 0, _, _, _ => .error (.valueError "Varint exceeds 4 bytes")
  | k + 1, i, multiplier, value =>
      match buf[offset + i]? with
      | none => .error (.valueError "Buffer too short for varint")
      | some byte =>
          let value := value + (byte &&& 0x7F).toNat * multiplier
          if byte &&& 0x80 = 0 then .ok (value, i + 1)
          else decodeVarintLoop buf offset k (i + 1) (multiplier * 128) value

/-- `decode_varint`: the value and the number of bytes read. -/
def decodeVarint (buf : Bytes) (offset : Nat) : Except PyError (Nat × Nat) :=
  decodeVarintLoop buf offset 4 0 1 0

/-- `s.encode("utf-8")`. -/
def utf8Encode (s : String) : Bytes := s.toByteArray.data.toList

/-- `data.decode("utf-8")`. -/
def utf8Decode (data : Bytes) : Except PyError String :=
  match String.fromUTF8? data.toByteArray with
  | some s => .ok s
  | none => .error (.unicodeDecodeError data)

/-- `encode_str`. -/
def encodeStr (s : String) : Except PyError Bytes := do
  let encoded := utf8Encode s
  let len ← packH encoded.length
  .ok (len ++ encoded)

/-- `decode_str`. -/
def decodeStr (buf : Bytes) (offset : Nat) : Except PyError (String × Nat) := do
  if offset + 2 > buf.length then
    .error (.valueError "Buffer too short for string length prefix")
  else
    let length ← unpackH buf offset
    let fin := offset + 2 + length
    if fin > buf.length then
      .error (.valueError "Buffer too short for string data")
    else
      let s ← utf8Decode ((buf.drop (offset + 2)).take length)
      .ok (s, 2 + length)

/-- `encode_bytes_field`. -/
def encodeBytesField (data : Bytes) : Except PyError Bytes := do
  let len ← packH data.length
  .ok (len ++ data)

/-- `decode_bytes_field`. -/
def decodeBytesField (buf : Bytes) (offset : Nat) : Except PyError (Bytes × Nat) := do
  if offset + 2 > buf.length then
    .error (.valueError "Buffer too short for bytes length prefix")
  else
    let length ← unpackH buf offset
    let fin := offset + 2 + length
    if fin > buf.length then
      .error (.valueError "Buffer too short for bytes data")
    else
      .ok ((buf.drop (offset + 2)).take length, 2 + length)

/-- A decoded string takes at least its two length bytes. -/
theorem two_le_of_decodeStr {buf : Bytes} {pos n : Nat} {s : String}
    (h : decodeStr buf pos = .ok (s, n)) : 2 ≤ n := by
  unfold decodeStr at h
  split at h
  · cases h
  · obtain ⟨length, _, h⟩ := bind_eq_ok.mp h
    dsimp only at h
    split at h
    · cases h
    · obtain ⟨_, _, h⟩ := bind_eq_ok.mp h
      simp only [Except.ok.injEq, Prod.mk.injEq] at h
      omega

/-! ## Variable-length integers -/

theorem and_7F_toNat (b : UInt8) : (b &&& 0x7F).toNat = b.toNat % 128 := by
  rw [UInt8.toNat_and]
  exact Nat.and_two_pow_sub_one_eq_mod b.toNat 7

theorem and_80_eq_zero_iff (b : UInt8) : b &&& 0x80 = 0 ↔ b.toNat < 128 := by
  have key : ∀ n : Fin 256, (n.val &&& 128 = 0) ↔ n.val < 128 := by decide +kernel
  have h := key ⟨b.toNat, b.toNat_lt⟩
  rw [← h, ← UInt8.toNat_inj, UInt8.toNat_and]
  rfl

theorem encodeVarintLoop_ne_nil (value : Nat) : encodeVarintLoop value ≠ [] := by
  rw [encodeVarintLoop]
  split <;> simp

/-- The decoder loop, started inside an encoding of `value` with enough iterations left,
    adds `value` at the current multiplier and stops at the end of the encoding. -/
theorem decodeVarintLoop_of_drop {buf rest : Bytes} {offset : Nat} :
    ∀ (k i multiplier acc value : Nat), value < 128 ^ k →
      buf.drop (offset + i) = encodeVarintLoop value ++ rest → 0 < k →
      decodeVarintLoop buf offset k i multiplier acc =
        .ok (acc + value * multiplier, i + (encodeVarintLoop value).length) := by
  intro k
  induction k with
  | zero => intro _ _ _ _ _ _ h; exact absurd h (Nat.lt_irrefl 0)
  | succ k ih =>
    intro i multiplier acc value hv hd _
    rw [encodeVarintLoop] at hd ⊢
    split
    · next hz =>
      rw [dif_pos hz] at hd
      have hb := getElem?_of_drop hd
      have hm : (UInt8.ofNat (value % 128)).toNat = value := by
        rw [toNat_ofNat_of_lt (by omega)]; omega
      have hc : UInt8.ofNat (value % 128) &&& 0x80 = 0 := by
        rw [and_80_eq_zero_iff, hm]; omega
      simp only [decodeVarintLoop, hb, if_pos hc, and_7F_toNat, hm, List.length_singleton]
      rw [Nat.mod_eq_of_lt (by omega)]
    · next hz =>
      rw [dif_neg hz] at hd
      have hb := getElem?_of_drop hd
      have hm : (UInt8.ofNat (value % 128 + 128)).toNat = value % 128 + 128 :=
        toNat_ofNat_of_lt (by omega)
      have hc : ¬ UInt8.ofNat (value % 128 + 128) &&& 0x80 = 0 := by
        rw [and_80_eq_zero_iff, hm]; omega
      have hk : value / 128 < 128 ^ k := by
        rw [Nat.div_lt_iff_lt_mul (by decide), ← Nat.pow_succ]; exact hv
      have hk0 : 0 < k := by
        rcases Nat.eq_zero_or_pos k with h0 | h0
        · subst h0; omega
        · exact h0
      have hd' : buf.drop (offset + (i + 1)) = encodeVarintLoop (value / 128) ++ rest := by
        rw [← Nat.add_assoc]; exact drop_succ_of_drop hd
      simp only [decodeVarintLoop, hb, if_neg hc, and_7F_toNat, hm]
      rw [ih (i + 1) (multiplier * 128) _ (value / 128) hk hd' hk0]
      have hsum : acc + (value % 128 + 128) % 128 * multiplier + value / 128 * (multiplier * 128) =
          acc + value * multiplier := by
        have hdm : value = value % 128 + value / 128 * 128 := by omega
        have hmod : (value % 128 + 128) % 128 = value % 128 := by omega
        rw [hmod, Nat.mul_comm multiplier 128, ← Nat.mul_assoc, Nat.add_assoc, ← Nat.add_mul,
          ← hdm]
      rw [hsum, List.length_cons]
      congr 2
      omega

/-- What `encode_varint` wrote at `pos` is read back there. -/
theorem decodeVarint_of_drop {buf bs rest : Bytes} {pos : Nat} {value : Int}
    (h : encodeVarint value = .ok bs) (hd : buf.drop pos = bs ++ rest) :
    ∃ k : Nat, decodeVarint buf pos = .ok (k, bs.length) ∧ (k : Int) = value := by
  unfold encodeVarint at h
  split at h
  · cases h
  · next hr =>
    simp only [Except.ok.injEq] at h
    subst h
    simp only [maxMqttVarint, not_or, Int.not_lt] at hr
    refine ⟨value.toNat, ?_, by omega⟩
    have hlt : value.toNat < 128 ^ 4 := by
      have : (128 : Nat) ^ 4 = 268435456 := by decide
      omega
    have hd0 : buf.drop (pos + 0) = encodeVarintLoop value.toNat ++ rest := hd
    have := decodeVarintLoop_of_drop 4 0 1 0 value.toNat hlt hd0 (by decide)
    simpa [decodeVarint] using this

theorem encodeVarint_ne_nil {value : Int} {bs : Bytes} (h : encodeVarint value = .ok bs) :
    bs ≠ [] := by
  unfold encodeVarint at h
  split at h
  · cases h
  · simp only [Except.ok.injEq] at h
    subst h
    exact encodeVarintLoop_ne_nil _

/-! ## Strings and binary fields -/

theorem utf8Decode_utf8Encode (s : String) : utf8Decode (utf8Encode s) = .ok s := by
  have hb : (utf8Encode s).toByteArray = s.toByteArray := by
    apply ByteArray.ext
    simp [utf8Encode]
  have hs : String.fromUTF8? s.toByteArray = some s := by
    unfold String.fromUTF8?
    rw [dif_pos s.isValidUTF8]
    rfl
  simp only [utf8Decode, hb, hs]

theorem decodeBytesField_of_drop {buf bs rest data : Bytes} {pos : Nat}
    (h : encodeBytesField data = .ok bs) (hd : buf.drop pos = bs ++ rest) :
    decodeBytesField buf pos = .ok (data, bs.length) := by
  obtain ⟨len, hlen, he⟩ := bind_eq_ok.mp h
  simp only [Except.ok.injEq] at he
  subst he
  have h2 := packH_length hlen
  rw [List.append_assoc] at hd
  obtain ⟨k, hk, hkn⟩ := unpackH_of_drop hlen hd
  have hkl : k = data.length := by exact_mod_cast hkn
  have hdata := drop_add_of_drop hd
  rw [h2] at hdata
  have hl := congrArg List.length hd
  simp only [List.length_drop, List.length_append, h2] at hl
  unfold decodeBytesField
  rw [if_neg (by omega), hk]
  simp only [ok_bind]
  rw [if_neg (by omega), hdata, hkl, List.take_left]
  simp [h2]

theorem decodeStr_of_drop {buf bs rest : Bytes} {pos : Nat} {s : String}
    (h : encodeStr s = .ok bs) (hd : buf.drop pos = bs ++ rest) :
    decodeStr buf pos = .ok (s, bs.length) := by
  obtain ⟨len, hlen, he⟩ := bind_eq_ok.mp h
  simp only [Except.ok.injEq] at he
  subst he
  have h2 := packH_length hlen
  rw [List.append_assoc] at hd
  obtain ⟨k, hk, hkn⟩ := unpackH_of_drop hlen hd
  have hkl : k = (utf8Encode s).length := by exact_mod_cast hkn
  have hdata := drop_add_of_drop hd
  rw [h2] at hdata
  have hl := congrArg List.length hd
  simp only [List.length_drop, List.length_append, h2] at hl
  unfold decodeStr
  rw [if_neg (by omega), hk]
  simp only [ok_bind]
  rw [if_neg (by omega), hdata, hkl, List.take_left, utf8Decode_utf8Encode]
  simp [h2]

end Zmqtt
