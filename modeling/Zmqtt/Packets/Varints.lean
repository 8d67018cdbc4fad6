/-
  The two readers of variable-length integers: `decode_varint` (`_wire.py`), and the loop
  inlined in `decode` (`codec.py`), which reports a buffer that ends early by `None`.

  `remainingLengthLoop_eq` gives the inlined loop as the other one under a change of
  outcomes, in every iteration, so their agreement needs no induction of its own. The
  bytes that `encode_varint` writes are the fewest from which either reads the value
  (`length_encodeVarintLoop_le`).
-/
import Zmqtt.Packets.RoundTrip

namespace Zmqtt

/-- The `ValueError` of `decode_varint` for a buffer that ends inside the varint. -/
def varintTooShort : PyError := .valueError "Buffer too short for varint"

/-- The `ValueError` of `decode_varint` after four bytes with the continuation bit. -/
def varintTooLong : PyError := .valueError "Varint exceeds 4 bytes"

/-- The `ValueError` of the inlined loop after four bytes with the continuation bit. -/
def remainingLengthTooLong : PyError :=
  .valueError "Remaining-length varint exceeds 4 bytes"

/-- The part of `decode` that reads the remaining length: the length check and the loop. -/
def inlineVarint (buffer : Bytes) : Except PyError (Option (Nat × Nat)) :=
  if buffer.length < 2 then .ok none else remainingLengthLoop buffer 4 0 1 0

/-- The part of `decode` after the remaining length is read, or found incomplete. -/
def decodeFrame (buffer : Bytes) (version : Version) :
    Option (Nat × Nat) → Except PyError (Option (Packet × Nat))
  | none => .ok none
  | some (remainingLength, varintBytes) => do
      let firstByte ← byteAt buffer 0
      let packetTypeVal := (firstByte.toNat >>> 4) &&& 0x0F
      let flags := firstByte.toNat &&& 0x0F
      let total := 1 + varintBytes + remainingLength
      if buffer.length < total then .ok none
      else
        match PacketType.ofVal? packetTypeVal with
        | none => .error (.valueError ("Unknown MQTT packet type: " ++ toString packetTypeVal))
        | some packetType =>
            let body := (buffer.drop (1 + varintBytes)).take remainingLength
            let packet ← decodeBody packetType flags body version
            .ok (some (packet, total))

/-- `decode` reads the remaining length first, and does nothing without it. -/
theorem decode_eq_inlineVarint (buffer : Bytes) (version : Version) :
    decode buffer version = inlineVarint buffer >>= decodeFrame buffer version := by
  unfold decode inlineVarint
  by_cases hshort : buffer.length < 2
  · rw [if_pos hshort, if_pos hshort]
    rfl
  · rw [if_neg hshort, if_neg hshort]
    have hfirst : ∃ first, byteAt buffer 0 = .ok first := by
      cases buffer with
      | nil => exact absurd (by decide) hshort
      | cons first rest => exact ⟨first, rfl⟩
    obtain ⟨first, hfirst⟩ := hfirst
    rw [hfirst, ok_bind]
    cases remainingLengthLoop buffer 4 0 1 0 with
    | error e => rfl
    | ok r =>
      cases r with
      | none => rfl
      | some frame =>
        obtain ⟨remainingLength, varintBytes⟩ := frame
        rw [ok_bind, ok_bind, decodeFrame, hfirst]
        rfl

/-! ## The two loops -/

/-- How the inlined loop reports an outcome of `decode_varint`. -/
def inlineOutcome : Except PyError (Nat × Nat) → Except PyError (Option (Nat × Nat))
  | .ok r => .ok (some r)
  | .error e => if e = varintTooShort then .ok none else .error remainingLengthTooLong

theorem remainingLengthLoop_eq (buffer : Bytes) (k i multiplier acc : Nat) :
    remainingLengthLoop buffer k i multiplier acc =
      inlineOutcome (decodeVarintLoop buffer 1 k i multiplier acc) := by
  induction k generalizing i multiplier acc with
  | zero => rfl
  | succ k ih =>
    rw [remainingLengthLoop, decodeVarintLoop]
    cases buffer[1 + i]? with
    | none => rfl
    | some byte =>
      dsimp only
      by_cases hlast : byte &&& 0x80 = 0
      · rw [if_pos hlast, if_pos hlast]
        rfl
      · rw [if_neg hlast, if_neg hlast]
        exact ih _ _ _

/-- The check before the loop changes nothing: with less than two bytes the loop reports
    the same. -/
theorem inlineVarint_eq (buffer : Bytes) :
    inlineVarint buffer = inlineOutcome (decodeVarint buffer 1) := by
  rw [inlineVarint, decodeVarint, ← remainingLengthLoop_eq]
  by_cases hshort : buffer.length < 2
  · have hnone : buffer[1 + 0]? = none := List.getElem?_eq_none (by omega)
    rw [if_pos hshort, remainingLengthLoop, hnone]
  · rw [if_neg hshort]

/-- `k` bytes from `offset` on are there, and each has the continuation bit. -/
def Continues (buf : Bytes) (offset k : Nat) : Prop :=
  ∀ j < k, ∃ byte, buf[offset + j]? = some byte ∧ byte &&& 0x80 ≠ 0

theorem continues_succ {buf : Bytes} {offset k : Nat} :
    Continues buf offset (k + 1) ↔
      (∃ byte, buf[offset]? = some byte ∧ byte &&& 0x80 ≠ 0) ∧ Continues buf (offset + 1) k := by
  constructor
  · intro h
    refine ⟨h 0 (by omega), fun j hj => ?_⟩
    have hnext := h (j + 1) (by omega)
    rwa [show offset + (j + 1) = offset + 1 + j by omega] at hnext
  · rintro ⟨hfirst, hrest⟩ j hj
    cases j with
    | zero => exact hfirst
    | succ j =>
      have hnext := hrest j (by omega)
      rwa [show offset + 1 + j = offset + (j + 1) by omega] at hnext

/-- How the loop of `decode_varint` fails. -/
theorem decodeVarintLoop_eq_error {buf : Bytes} {offset k i multiplier acc : Nat} {e : PyError} :
    decodeVarintLoop buf offset k i multiplier acc = .error e →
      e = varintTooShort ∨ e = varintTooLong ∧ Continues buf (offset + i) k := by
  intro h
  induction k generalizing i multiplier acc with
  | zero =>
    cases h
    exact .inr ⟨rfl, fun j hj => absurd hj (Nat.not_lt_zero j)⟩
  | succ k ih =>
    rw [decodeVarintLoop] at h
    cases hbyte : buf[offset + i]? with
    | none =>
      rw [hbyte] at h
      cases h
      exact .inl rfl
    | some byte =>
      rw [hbyte] at h
      dsimp only at h
      by_cases hlast : byte &&& 0x80 = 0
      · rw [if_pos hlast] at h
        cases h
      · rw [if_neg hlast] at h
        obtain hshort | ⟨hlong, hrest⟩ := ih h
        · exact .inl hshort
        · exact .inr ⟨hlong, continues_succ.2 ⟨⟨byte, hbyte, hlast⟩, hrest⟩⟩

theorem decodeVarintLoop_of_continues {buf : Bytes} {offset k i multiplier acc : Nat}
    (h : Continues buf (offset + i) k) :
    decodeVarintLoop buf offset k i multiplier acc = .error varintTooLong := by
  induction k generalizing i multiplier acc with
  | zero => rfl
  | succ k ih =>
    obtain ⟨⟨byte, hbyte, hmore⟩, hrest⟩ := continues_succ.1 h
    rw [decodeVarintLoop, hbyte]
    dsimp only
    rw [if_neg hmore]
    exact ih hrest

/-- `decode_varint` rejects a varint that is there as a whole exactly when its first four
    bytes all continue. -/
theorem decodeVarint_eq_tooLong {buf : Bytes} {offset : Nat} {e : PyError} :
    decodeVarint buf offset = .error e ∧ e ≠ varintTooShort ↔
      e = varintTooLong ∧ Continues buf offset 4 := by
  constructor
  · rintro ⟨h, hne⟩
    exact (decodeVarintLoop_eq_error h).resolve_left hne
  · rintro ⟨rfl, hcont⟩
    exact ⟨decodeVarintLoop_of_continues hcont, by decide⟩

/-! ## Canonical form -/

theorem length_encodeVarintLoop_step {low rest : Nat} (hlow : low < 128) :
    (encodeVarintLoop (low + 128 * rest)).length ≤ 1 + (encodeVarintLoop rest).length := by
  rw [encodeVarintLoop]
  split
  · rw [List.length_singleton]
    omega
  · rw [List.length_cons, show (low + 128 * rest) / 128 = rest by omega]
    omega

/-- The loop reads a value from at least as many bytes as `encode_varint` writes for it. -/
theorem length_encodeVarintLoop_le {buf : Bytes} {offset k i multiplier acc value n : Nat}
    (h : decodeVarintLoop buf offset k i multiplier acc = .ok (value, n)) :
    ∃ added, value = acc + added * multiplier ∧ i + (encodeVarintLoop added).length ≤ n := by
  induction k generalizing i multiplier acc with
  | zero => cases h
  | succ k ih =>
    rw [decodeVarintLoop] at h
    cases hbyte : buf[offset + i]? with
    | none =>
      rw [hbyte] at h
      cases h
    | some byte =>
      rw [hbyte] at h
      dsimp only at h
      have hlow : (byte &&& 0x7F).toNat < 128 := by
        rw [and_7F_toNat]
        omega
      by_cases hlast : byte &&& 0x80 = 0
      · rw [if_pos hlast] at h
        cases h
        refine ⟨_, rfl, ?_⟩
        rw [encodeVarintLoop, dif_pos (by omega), List.length_singleton]
      · rw [if_neg hlast] at h
        obtain ⟨rest, hvalue, hn⟩ := ih h
        refine ⟨(byte &&& 0x7F).toNat + 128 * rest, ?_, ?_⟩
        · rw [hvalue]
          ring
        · have hlen := @length_encodeVarintLoop_step _ rest hlow
          omega

theorem encodeVarint_shortest {buf bs : Bytes} {offset value n : Nat}
    (hbs : encodeVarint value = .ok bs) (h : decodeVarint buf offset = .ok (value, n)) :
    bs.length ≤ n := by
  obtain ⟨added, hvalue, hn⟩ := length_encodeVarintLoop_le h
  rw [Nat.zero_add, Nat.mul_one] at hvalue
  rw [encodeVarint] at hbs
  split at hbs
  · cases hbs
  · cases hbs
    rw [Int.toNat_natCast, hvalue]
    omega

/-! ## Agreement -/

theorem inlineVarint_eq_some {b : Bytes} {r : Nat × Nat} :
    inlineVarint b = .ok (some r) ↔ decodeVarint b 1 = .ok r := by
  rw [inlineVarint_eq]
  cases decodeVarint b 1 with
  | ok r' => simp [inlineOutcome]
  | error e =>
    rw [inlineOutcome]
    split <;> simp

theorem inlineVarint_eq_none {b : Bytes} :
    inlineVarint b = .ok none ↔ decodeVarint b 1 = .error varintTooShort := by
  rw [inlineVarint_eq]
  cases decodeVarint b 1 with
  | ok r => simp [inlineOutcome]
  | error e =>
    rw [inlineOutcome]
    split
    · next hshort => simp [hshort]
    · next hshort => simp [hshort]

theorem inlineVarint_eq_error {b : Bytes} {e : PyError} :
    inlineVarint b = .error e ↔ e = remainingLengthTooLong ∧ Continues b 1 4 := by
  have hlong := @decodeVarint_eq_tooLong b 1
  rw [inlineVarint_eq]
  constructor
  · intro h
    cases hdecode : decodeVarint b 1 with
    | ok r =>
      rw [hdecode] at h
      cases h
    | error e' =>
      rw [hdecode, inlineOutcome] at h
      split at h
      · cases h
      · next hne =>
        cases h
        exact ⟨rfl, (hlong.1 ⟨hdecode, hne⟩).2⟩
  · rintro ⟨rfl, hcont⟩
    rw [(hlong.2 ⟨rfl, hcont⟩).1]
    rfl

theorem encodeVarint_of_le {v : Nat} (hv : v ≤ 268435455) :
    encodeVarint v = .ok (encodeVarintLoop v) := by
  rw [encodeVarint, if_neg (by rw [maxMqttVarint]; omega), Int.toNat_natCast]

theorem decodeVarint_encoded {v : Nat} (hv : v ≤ 268435455) {b : Bytes} {offset : Nat} (suffix : Bytes)
    (hdrop : b.drop offset = encodeVarintLoop v ++ suffix) :
    decodeVarint b offset = .ok (v, (encodeVarintLoop v).length) := by
  obtain ⟨k, hk, hkv⟩ := decodeVarint_of_drop (encodeVarint_of_le hv) hdrop
  rw [hk, show k = v by omega]

/-- **The two readers of a varint.** On every buffer the loop inlined in `decode` and
    `decode_varint(b, 1)` give the same value and byte count, "incomplete" of the one is the
    short buffer of the other, and both reject exactly a varint of more than four bytes;
    both read back what `encode_varint` wrote, whatever follows, and no shorter bytes are
    read as the same value. -/
theorem varints_agree :
    (∀ b : Bytes,
      (∀ version, decode b version = inlineVarint b >>= decodeFrame b version) ∧
      (∀ r, inlineVarint b = .ok (some r) ↔ decodeVarint b 1 = .ok r) ∧
      (inlineVarint b = .ok none ↔ decodeVarint b 1 = .error varintTooShort) ∧
      (∀ e, inlineVarint b = .error e ↔ e = remainingLengthTooLong ∧ Continues b 1 4) ∧
      ∀ e, decodeVarint b 1 = .error e ∧ e ≠ varintTooShort ↔
        e = varintTooLong ∧ Continues b 1 4) ∧
    (∀ v : Nat, v ≤ 268435455 → ∃ bs, encodeVarint v = .ok bs ∧
      (∀ before suffix, decodeVarint (before ++ bs ++ suffix) before.length =
        .ok (v, bs.length)) ∧
      (∀ first suffix, inlineVarint (first :: bs ++ suffix) = .ok (some (v, bs.length))) ∧
      (∀ b offset n, decodeVarint b offset = .ok (v, n) → bs.length ≤ n) ∧
      ∀ b n, inlineVarint b = .ok (some (v, n)) → bs.length ≤ n) ∧
    ∀ v : Int, (v < 0 ∨ 268435455 < v) → ∃ msg, encodeVarint v = .error (.valueError msg) := by
  refine ⟨fun b => ⟨decode_eq_inlineVarint b, fun _ => inlineVarint_eq_some, inlineVarint_eq_none,
    fun _ => inlineVarint_eq_error, fun _ => decodeVarint_eq_tooLong⟩, fun v hv => ?_, fun v hv => ?_⟩
  · have hbs := encodeVarint_of_le hv
    refine ⟨_, hbs, fun before suffix => ?_, fun first suffix => ?_,
      fun b offset n h => encodeVarint_shortest hbs h,
      fun b n h => encodeVarint_shortest hbs (inlineVarint_eq_some.1 h)⟩
    · refine decodeVarint_encoded hv suffix ?_
      rw [List.append_assoc, List.drop_left]
    · exact inlineVarint_eq_some.2 (decodeVarint_encoded hv suffix rfl)
  · rw [encodeVarint, if_pos (by rw [maxMqttVarint]; omega)]
    exact ⟨_, rfl⟩

end Zmqtt
