/-
  Which exceptions `decode` raises (`_internal/packets/codec.py`). Strings, binary fields and
  variable-length integers check the length of the buffer first and raise `ValueError`; so do
  most fixed widths. The fixed widths of a property block and of the head of CONNECT do not: there
  a body that ends early raises `IndexError` or `struct.error`.

  `RunsOut` says that a fixed width of a property block lies outside the body, and `Overreads` that
  one of the packet does. `decode` raises another exception than a `ValueError` if and only if the
  packet overreads.
-/
import Zmqtt.Packets.Reader
import Zmqtt.Packets.SelfContained

namespace Zmqtt

open PropertyID (WireType)

/-! ## Property blocks -/

/-- The width of a property value that is read without a check. -/
def fixedWidth : WireType → Option Nat
  | .byte => some 1
  | .uint16 => some 2
  | .uint32 => some 4
  | .varint | .str | .bytesData | .pair => none

/-- A whole property value of `n` bytes stands at `pos`. -/
def ValueAt (buf : Bytes) (pos n : Nat) : WireType → Prop
  | .byte => n = 1 ∧ pos + 1 ≤ buf.length
  | .uint16 => n = 2 ∧ pos + 2 ≤ buf.length
  | .uint32 => n = 4 ∧ pos + 4 ≤ buf.length
  | .varint => ∃ value, decodeVarint buf pos = .ok (value, n)
  | .str => ∃ s, decodeStr buf pos = .ok (s, n)
  | .bytesData => ∃ data, decodeBytesField buf pos = .ok (data, n)
  | .pair => ∃ key k value v, decodeStr buf pos = .ok (key, k) ∧
      decodeStr buf (pos + k) = .ok (value, v) ∧ n = k + v

/-- The loop of `decode_props_block` gets from `pos` to `stop`: whole properties stand between
    them, each of which begins before `fin`. -/
inductive Reaches (buf : Bytes) (fin : Nat) : Nat → Nat → Prop where
  | here {pos : Nat} : Reaches buf fin pos pos
  | next {pos stop n : Nat} {b : UInt8} {pid : PropertyID} (hlt : pos < fin) (hb : buf[pos]? = some b)
      (hpid : PropertyID.ofVal? b = some pid) (hvalue : ValueAt buf (pos + 1) n pid.wireType)
      (hrest : Reaches buf fin (pos + 1 + n) stop) : Reaches buf fin pos stop

/-- A property that begins at `pos` has its id, or a fixed width, outside the buffer. -/
def OutsideAt (buf : Bytes) (pos : Nat) : Prop :=
  buf.length ≤ pos ∨ ∃ b pid width, buf[pos]? = some b ∧ PropertyID.ofVal? b = some pid ∧
    fixedWidth pid.wireType = some width ∧ buf.length < pos + 1 + width

/-- From `pos` on, the properties of a block that ends at `fin` come to a fixed width outside the
    buffer. -/
def RunsOut (buf : Bytes) (fin pos : Nat) : Prop :=
  ∃ stop, Reaches buf fin pos stop ∧ stop < fin ∧ OutsideAt buf stop

/-- The property block at `offset` runs out of the buffer. -/
def BlockRunsOut (buf : Bytes) (offset : Nat) : Prop :=
  ∃ propsLen n, decodeVarint buf offset = .ok (propsLen, n) ∧
    RunsOut buf (offset + n + propsLen) (offset + n)

/-- The property block at `offset` can be read and takes `m` bytes, its length prefix included. -/
def BlockTakes (buf : Bytes) (offset m : Nat) : Prop :=
  ∃ propsLen n stop, decodeVarint buf offset = .ok (propsLen, n) ∧
    Reaches buf (offset + n + propsLen) (offset + n) stop ∧ offset + n + propsLen ≤ stop ∧
    m = n + propsLen

variable {buf : Bytes} {pos fin : Nat}

theorem not_slips_decodeVarint (buf : Bytes) (offset : Nat) : ¬ Slips (decodeVarint buf offset) := by
  have hloop : ∀ k i multiplier acc, ¬ Slips (decodeVarintLoop buf offset k i multiplier acc) := by
    intro k
    induction k with
    | zero =>
      intro i multiplier acc h
      cases slips_error.1 h
    | succ k ih =>
      intro i multiplier acc h
      unfold decodeVarintLoop at h
      split at h
      · cases slips_error.1 h
      · dsimp only at h
        split at h
        · exact not_slips_ok _ h
        · exact ih _ _ _ h
  exact hloop 4 0 1 0

theorem not_slips_utf8Decode (data : Bytes) : ¬ Slips (utf8Decode data) := by
  intro h
  unfold utf8Decode at h
  split at h
  · exact not_slips_ok _ h
  · cases slips_error.1 h

/-- The two length bytes are read after the check. -/
theorem not_slips_decodeBytesField (buf : Bytes) (offset : Nat) :
    ¬ Slips (decodeBytesField buf offset) := by
  intro h
  unfold decodeBytesField at h
  split at h
  · cases slips_error.1 h
  · next hprefix =>
    rcases slips_bind.1 h with h | ⟨length, -, h⟩
    · have hshort := slips_unpackH.1 h
      omega
    · dsimp only at h
      split at h
      · cases slips_error.1 h
      · exact not_slips_ok _ h

theorem not_slips_decodeStr (buf : Bytes) (offset : Nat) : ¬ Slips (decodeStr buf offset) := by
  intro h
  unfold decodeStr at h
  split at h
  · cases slips_error.1 h
  · next hprefix =>
    rcases slips_bind.1 h with h | ⟨length, -, h⟩
    · have hshort := slips_unpackH.1 h
      omega
    · dsimp only at h
      split at h
      · cases slips_error.1 h
      · rcases slips_bind.1 h with h | ⟨s, -, h⟩
        · exact not_slips_utf8Decode _ h
        · exact not_slips_ok _ h

/-- A property value slips when its fixed width lies outside the buffer. -/
theorem slips_decodeProp (buf : Bytes) (pid : PropertyID) (pos : Nat) (d : PropDict) :
    Slips (decodeProp buf pid pos d) ↔
      ∃ width, fixedWidth pid.wireType = some width ∧ buf.length < pos + width := by
  unfold decodeProp
  cases pid.wireType with
  | byte =>
    simp only [slips_bind, slips_byteAt, not_slips_ok, fixedWidth]
    simp
  | uint16 =>
    simp only [slips_bind, slips_unpackH, not_slips_ok, fixedWidth]
    simp
  | uint32 =>
    simp only [slips_bind, slips_unpackI, not_slips_ok, fixedWidth]
    simp
  | varint => simp [slips_bind, not_slips_decodeVarint, not_slips_ok, fixedWidth]
  | str => simp [slips_bind, not_slips_decodeStr, not_slips_ok, fixedWidth]
  | bytesData => simp [slips_bind, not_slips_decodeBytesField, not_slips_ok, fixedWidth]
  | pair => simp [slips_bind, not_slips_decodeStr, not_slips_ok, fixedWidth]

/-- A property value is read where a whole one stands. -/
theorem valueAt_iff (buf : Bytes) (pid : PropertyID) (pos n : Nat) (d : PropDict) :
    (∃ d', decodeProp buf pid pos d = .ok (d', n)) ↔ ValueAt buf pos n pid.wireType := by
  unfold decodeProp
  cases pid.wireType with
  | byte =>
    simp only [bind_eq_ok, ValueAt, Except.ok.injEq, Prod.mk.injEq]
    constructor
    · rintro ⟨d', b, hb, -, hn⟩
      exact ⟨hn.symm, lt_of_byteAt hb⟩
    · rintro ⟨hn, hle⟩
      obtain ⟨b, hb⟩ := exists_byteAt (show pos < buf.length by omega)
      exact ⟨_, b, hb, rfl, hn.symm⟩
  | uint16 =>
    simp only [bind_eq_ok, ValueAt, Except.ok.injEq, Prod.mk.injEq]
    constructor
    · rintro ⟨d', value, hvalue, -, hn⟩
      exact ⟨hn.symm, le_of_unpackH hvalue⟩
    · rintro ⟨hn, hle⟩
      obtain ⟨value, hvalue⟩ := exists_unpackH hle
      exact ⟨_, value, hvalue, rfl, hn.symm⟩
  | uint32 =>
    simp only [bind_eq_ok, ValueAt, Except.ok.injEq, Prod.mk.injEq]
    constructor
    · rintro ⟨d', value, hvalue, -, hn⟩
      exact ⟨hn.symm, le_of_unpackI hvalue⟩
    · rintro ⟨hn, hle⟩
      obtain ⟨value, hvalue⟩ := exists_unpackI hle
      exact ⟨_, value, hvalue, rfl, hn.symm⟩
  | varint => simp [bind_eq_ok, ValueAt]
  | str => simp [bind_eq_ok, ValueAt]
  | bytesData => simp [bind_eq_ok, ValueAt]
  | pair =>
    simp only [bind_eq_ok, ValueAt, Except.ok.injEq, Prod.mk.injEq, Prod.exists]
    constructor
    · rintro ⟨d', key, k, hkey, value, v, hvalue, -, hn⟩
      exact ⟨key, k, value, v, hkey, hvalue, hn.symm⟩
    · rintro ⟨key, k, value, v, hkey, hvalue, hn⟩
      exact ⟨_, key, k, hkey, value, v, hvalue, rfl, hn.symm⟩

/-- What `byteAt` reads is the byte that stands there. -/
theorem byteAt_eq_ok {b : UInt8} : byteAt buf pos = .ok b ↔ buf[pos]? = some b := by
  unfold byteAt
  split
  · next b' hb => simp [hb]
  · next hb => simp [hb]

/-- The first turn of the loop, on the side of the block. -/
theorem runsOut_iff (hlt : pos < fin) :
    RunsOut buf fin pos ↔ OutsideAt buf pos ∨ ∃ b pid n, buf[pos]? = some b ∧
      PropertyID.ofVal? b = some pid ∧ ValueAt buf (pos + 1) n pid.wireType ∧
      RunsOut buf fin (pos + 1 + n) := by
  constructor
  · rintro ⟨stop, hreach, hstop, hout⟩
    cases hreach with
    | here => exact .inl hout
    | next _ hb hpid hvalue hrest => exact .inr ⟨_, _, _, hb, hpid, hvalue, stop, hrest, hstop, hout⟩
  · rintro (hout | ⟨b, pid, n, hb, hpid, hvalue, stop, hrest, hstop, hout⟩)
    · exact ⟨pos, .here, hlt, hout⟩
    · exact ⟨stop, .next hlt hb hpid hvalue hrest, hstop, hout⟩

/-- Nothing of a block is left to run out of. -/
theorem not_runsOut (hge : ¬ pos < fin) : ¬ RunsOut buf fin pos := by
  rintro ⟨stop, hreach, hstop, -⟩
  cases hreach with
  | here => exact hge hstop
  | next hlt _ _ _ _ => exact hge hlt

/-- The loop of `decode_props_block` slips if and only if the properties run out of the buffer. -/
theorem slips_decodePropsLoop (buf : Bytes) (fin pos : Nat) (d : PropDict) :
    Slips (decodePropsLoop buf fin pos d) ↔ RunsOut buf fin pos := by
  induction hk : fin - pos using Nat.strong_induction_on generalizing pos d with
  | _ k ih =>
    rw [decodePropsLoop]
    split
    · next hlt =>
      rw [runsOut_iff hlt, slips_bind, slips_byteAt]
      constructor
      · rintro (hout | ⟨b, hb, hslip⟩)
        · exact .inl (.inl hout)
        · have hget := byteAt_eq_ok.1 hb
          split at hslip
          · cases slips_error.1 hslip
          · next pid hpid =>
            rcases slips_bind.1 hslip with hslip | ⟨⟨d', n⟩, hprop, hslip⟩
            · obtain ⟨width, hwidth, hout⟩ := (slips_decodeProp _ _ _ _).1 hslip
              exact .inl (.inr ⟨b, pid, width, hget, hpid, hwidth, hout⟩)
            · have hvalue := (valueAt_iff buf pid (pos + 1) n d).1 ⟨d', hprop⟩
              have hrest := (ih (fin - (pos + 1 + n)) (by omega) (pos + 1 + n) d' rfl).1 hslip
              exact .inr ⟨b, pid, n, hget, hpid, hvalue, hrest⟩
      · rintro ((hout | ⟨b, pid, width, hb, hpid, hwidth, hout⟩) | ⟨b, pid, n, hb, hpid, hvalue, hrest⟩)
        · exact .inl hout
        · refine .inr ⟨b, byteAt_eq_ok.2 hb, ?_⟩
          simp only [hpid]
          exact slips_bind.2 (.inl ((slips_decodeProp _ _ _ _).2 ⟨width, hwidth, hout⟩))
        · refine .inr ⟨b, byteAt_eq_ok.2 hb, ?_⟩
          obtain ⟨d', hprop⟩ := (valueAt_iff buf pid (pos + 1) n d).2 hvalue
          have hslip := (ih (fin - (pos + 1 + n)) (by omega) (pos + 1 + n) d' rfl).2 hrest
          simp only [hpid]
          exact slips_bind.2 (.inr ⟨_, hprop, hslip⟩)
    · next hge => exact iff_of_false (not_slips_ok _) (not_runsOut hge)

/-- The loop ends if and only if whole properties reach the end of the block. -/
theorem decodePropsLoop_ends (buf : Bytes) (fin pos : Nat) (d : PropDict) :
    (∃ d', decodePropsLoop buf fin pos d = .ok d') ↔ ∃ stop, Reaches buf fin pos stop ∧ fin ≤ stop := by
  constructor
  · rintro ⟨d', hloop⟩
    induction hk : fin - pos using Nat.strong_induction_on generalizing pos d with
    | _ k ih =>
      by_cases hlt : pos < fin
      · obtain ⟨b, pid, d₁, n, hb, hpid, hprop, hloop⟩ := decodePropsLoop_eq_ok hloop hlt
        obtain ⟨stop, hreach, hstop⟩ := ih (fin - (pos + 1 + n)) (by omega) _ _ hloop rfl
        have hvalue := (valueAt_iff buf pid (pos + 1) n d).1 ⟨d₁, hprop⟩
        exact ⟨stop, .next hlt (byteAt_eq_ok.1 hb) hpid hvalue hreach, hstop⟩
      · exact ⟨pos, .here, Nat.not_lt.1 hlt⟩
  · rintro ⟨stop, hreach, hstop⟩
    induction hreach generalizing d with
    | here =>
      rw [decodePropsLoop, dif_neg (Nat.not_lt.2 hstop)]
      exact ⟨d, rfl⟩
    | next hlt hb hpid hvalue _ ih =>
      obtain ⟨d₁, hprop⟩ := (valueAt_iff buf _ _ _ d).2 hvalue
      rw [decodePropsLoop, dif_pos hlt, byteAt_eq_ok.2 hb, ok_bind]
      simp only [hpid]
      rw [hprop, ok_bind]
      exact ih d₁ hstop

section Block

variable {α : Type} (c : PropCodec α) (buf : Bytes) (offset : Nat)

theorem slips_decodeProperties : Slips (decodeProperties c buf offset) ↔ BlockRunsOut buf offset := by
  have hrecord : ∀ (d : PropDict) (n : Nat),
      ¬ Slips (if d = [] then .ok (none, n) else .ok (some (c.ofDict d), n)) := by
    intro d n h
    split at h
    · exact not_slips_ok _ h
    · exact not_slips_ok _ h
  unfold decodeProperties decodePropsBlock BlockRunsOut
  simp [slips_bind, not_slips_decodeVarint, slips_decodePropsLoop, hrecord]

theorem decodeProperties_takes (m : Nat) :
    (∃ props, decodeProperties c buf offset = .ok (props, m)) ↔ BlockTakes buf offset m := by
  constructor
  · rintro ⟨props, h⟩
    obtain ⟨⟨d, m'⟩, hblock, h⟩ := bind_eq_ok.1 h
    have hm : m' = m := by
      dsimp only at h
      split at h
      · cases h; rfl
      · cases h; rfl
    subst hm
    obtain ⟨⟨propsLen, n⟩, hvarint, hblock⟩ := bind_eq_ok.1 hblock
    obtain ⟨d', hloop, hblock⟩ := bind_eq_ok.1 hblock
    cases hblock
    obtain ⟨stop, hreach, hstop⟩ := (decodePropsLoop_ends _ _ _ _).1 ⟨d, hloop⟩
    exact ⟨propsLen, n, stop, hvarint, hreach, hstop, rfl⟩
  · rintro ⟨propsLen, n, stop, hvarint, hreach, hstop, rfl⟩
    obtain ⟨d, hloop⟩ := (decodePropsLoop_ends buf _ _ []).2 ⟨stop, hreach, hstop⟩
    unfold decodeProperties decodePropsBlock
    rw [hvarint, ok_bind]
    dsimp only
    rw [hloop, ok_bind, ok_bind]
    dsimp only
    split
    · exact ⟨none, rfl⟩
    · exact ⟨some _, rfl⟩

end Block

/-! ## Packet bodies -/

/-- In the property block that follows a packet id. -/
def HeadRunsOut (version : Version) (body : Bytes) : Prop :=
  version = .v5 ∧ 2 ≤ body.length ∧ BlockRunsOut body 2

/-- In the head of CONNECT, behind the protocol name (which ends at `n`), or in one of the two
    property blocks. -/
def ConnectRunsOut (body : Bytes) (n : Nat) : Prop :=
  body.length ≤ n ∨ ∃ level, body[n]? = some level ∧ (level = 0x04 ∨ level = 0x05) ∧
    (body.length ≤ n + 1 ∨ ∃ flags, body[n + 1]? = some flags ∧ (flags.toNat >>> 3) &&& 0x03 ≠ 3 ∧
      (body.length < n + 4 ∨ level = 0x05 ∧
        (BlockRunsOut body (n + 4) ∨ ∃ m clientId k, BlockTakes body (n + 4) m ∧
          decodeStr body (n + 4 + m) = .ok (clientId, k) ∧ flags.toNat &&& 0x04 ≠ 0 ∧
          BlockRunsOut body (n + 4 + m + k))))

/-- The packet in a body comes to a fixed width outside the body. -/
def Overreads (version : Version) (flags : Nat) (body : Bytes) : PacketType → Prop
  | .connect => ∃ n, decodeStr body 0 = .ok ("MQTT", n) ∧ ConnectRunsOut body n
  | .connack => version = .v5 ∧ 2 < body.length ∧ BlockRunsOut body 2
  | .publish => version = .v5 ∧ (flags >>> 1) &&& 0x03 ≠ 3 ∧ ∃ topic n,
      decodeStr body 0 = .ok (topic, n) ∧
      (if (flags >>> 1) &&& 0x03 = 0 then BlockRunsOut body n
        else n + 2 ≤ body.length ∧ BlockRunsOut body (n + 2))
  | .puback | .pubrec | .pubrel | .pubcomp => version = .v5 ∧ 3 < body.length ∧ BlockRunsOut body 3
  | .subscribe | .suback | .unsubscribe | .unsuback => HeadRunsOut version body
  | .disconnect => version = .v5 ∧ 1 < body.length ∧ BlockRunsOut body 1
  | .auth => 1 < body.length ∧ BlockRunsOut body 1
  | .pingreq | .pingresp => False

section Bodies

variable {α : Type} {cond : Prop} [Decidable cond] {part : Except PyError (Option α × Nat)}

theorem slips_readIf : Slips (readIf cond part) ↔ cond ∧ Slips part := by
  unfold readIf
  split
  · next hc => simp [hc]
  · next hc => simp [hc, not_slips_ok]

theorem QoS.val_ne_three (qos : QoS) : qos.val ≠ 3 := by
  cases qos <;> decide

theorem QoS.val_eq_zero {qos : QoS} : qos.val = 0 ↔ qos = .atMostOnce := by
  cases qos <;> decide

theorem ofVal_eq_ok {n : Nat} {qos : QoS} : QoS.ofVal n = .ok qos ↔ n = qos.val := by
  constructor
  · intro h
    unfold QoS.ofVal at h
    split at h
    · cases h; rfl
    · cases h; rfl
    · cases h; rfl
    · cases h
  · rintro rfl
    cases qos <;> rfl

/-- Two bits of a flags byte are a QoS, unless both are set. -/
theorem exists_ofVal (n : Nat) (hne : n &&& 0x03 ≠ 3) : ∃ qos, QoS.ofVal (n &&& 0x03) = .ok qos := by
  have hle : n &&& 0x03 ≤ 3 := Nat.and_le_right
  rcases (show n &&& 0x03 = 0 ∨ n &&& 0x03 = 1 ∨ n &&& 0x03 = 2 by omega) with h | h | h
  · exact ⟨.atMostOnce, by rw [h]; rfl⟩
  · exact ⟨.atLeastOnce, by rw [h]; rfl⟩
  · exact ⟨.exactlyOnce, by rw [h]; rfl⟩

theorem not_slips_ofVal (n : Nat) : ¬ Slips (QoS.ofVal n) := by
  intro h
  unfold QoS.ofVal at h
  split at h
  · exact not_slips_ok _ h
  · exact not_slips_ok _ h
  · exact not_slips_ok _ h
  · cases slips_error.1 h

theorem not_slips_retainHandling (n : Nat) : ¬ Slips (RetainHandling.ofVal n) := by
  intro h
  unfold RetainHandling.ofVal at h
  split at h
  · exact not_slips_ok _ h
  · exact not_slips_ok _ h
  · exact not_slips_ok _ h
  · cases slips_error.1 h

theorem not_slips_subscriptionOf (filter : String) (options : Nat) (version : Version) :
    ¬ Slips (subscriptionOf filter options version) := by
  unfold subscriptionOf
  intro h
  rcases slips_bind.1 h with h | ⟨qos, -, h⟩
  · exact not_slips_ofVal _ h
  · split at h
    · rcases slips_bind.1 h with h | ⟨rh, -, h⟩
      · exact not_slips_retainHandling _ h
      · exact not_slips_ok _ h
    · exact not_slips_ok _ h

/-- The options byte is read after the check. -/
theorem not_slips_decodeSubscriptions (buf : Bytes) (version : Version) (pos : Nat) :
    ¬ Slips (decodeSubscriptions buf version pos) := by
  induction hk : buf.length - pos using Nat.strong_induction_on generalizing pos with
  | _ k ih =>
    intro h
    rw [decodeSubscriptions] at h
    split at h
    · rcases slips_bind.1 h with h | ⟨⟨filter, n⟩, -, h⟩
      · exact not_slips_decodeStr _ _ h
      · dsimp only at h
        split at h
        · cases slips_error.1 h
        · next hoptions =>
          rcases slips_bind.1 h with h | ⟨options, -, h⟩
          · exact hoptions (slips_byteAt.1 h)
          · rcases slips_bind.1 h with h | ⟨sub, -, h⟩
            · exact not_slips_subscriptionOf _ _ _ h
            · rcases slips_bind.1 h with h | ⟨subs, -, h⟩
              · exact ih (buf.length - (pos + n + 1)) (by omega) _ rfl h
              · exact not_slips_ok _ h
    · exact not_slips_ok _ h

theorem not_slips_decodeTopicFilters (buf : Bytes) (pos : Nat) : ¬ Slips (decodeTopicFilters buf pos) := by
  induction hk : buf.length - pos using Nat.strong_induction_on generalizing pos with
  | _ k ih =>
    intro h
    rw [decodeTopicFilters] at h
    split at h
    · split at h
      · next e he =>
        refine not_slips_decodeStr buf pos ?_
        rw [he]
        exact slips_error.2 (slips_error.1 h)
      · next filter n hs =>
        have hn := two_le_of_decodeStr hs
        rcases slips_bind.1 h with h | ⟨filters, -, h⟩
        · exact ih (buf.length - (pos + n)) (by omega) _ rfl h
        · exact not_slips_ok _ h
    · exact not_slips_ok _ h

end Bodies

section BodyDecoders

variable (body : Bytes) (version : Version)

theorem slips_decodeConnack :
    Slips (decodeConnack body version) ↔ version = .v5 ∧ 2 < body.length ∧ BlockRunsOut body 2 := by
  unfold decodeConnack
  split
  · next hshort => exact iff_of_false (fun h => by cases slips_error.1 h) (by omega)
  · next hlong =>
    obtain ⟨sp, hsp⟩ := exists_byteAt (show 0 < body.length by omega)
    obtain ⟨rc, hrc⟩ := exists_byteAt (show 1 < body.length by omega)
    rw [hsp, ok_bind, hrc, ok_bind, slips_bind, slips_readIf, slips_decodeProperties]
    simp [not_slips_ok, and_assoc]

theorem slips_decodePubAckVariant :
    Slips (decodePubAckVariant body version) ↔
      version = .v5 ∧ 3 < body.length ∧ BlockRunsOut body 3 := by
  unfold decodePubAckVariant
  split
  · next hshort => exact iff_of_false (fun h => by cases slips_error.1 h) (by omega)
  · next hlong =>
    obtain ⟨packetId, hpid⟩ := exists_unpackH (show 0 + 2 ≤ body.length by omega)
    rw [hpid, ok_bind]
    split
    · next hv5 =>
      obtain ⟨rc, hrc⟩ := exists_byteAt (show 2 < body.length by omega)
      rw [hrc, ok_bind, slips_bind, slips_readIf, slips_decodeProperties]
      simp [not_slips_ok, hv5.1]
    · next hv => exact iff_of_false (not_slips_ok _) (fun h => hv ⟨h.1, by omega⟩)

theorem slips_decodeDisconnect :
    Slips (decodeDisconnect body version) ↔
      version = .v5 ∧ 1 < body.length ∧ BlockRunsOut body 1 := by
  unfold decodeDisconnect
  split
  · next hv5 =>
    obtain ⟨rc, hrc⟩ := exists_byteAt (show 0 < body.length by omega)
    rw [hrc, ok_bind, slips_bind, slips_readIf, slips_decodeProperties]
    simp [not_slips_ok, hv5.1]
  · next hv => exact iff_of_false (not_slips_ok _) (fun h => hv ⟨h.1, by omega⟩)

theorem slips_decodeAuth : Slips (decodeAuth body) ↔ 1 < body.length ∧ BlockRunsOut body 1 := by
  unfold decodeAuth
  split
  · next hshort => exact iff_of_false (fun h => by cases slips_error.1 h) (by omega)
  · next hlong =>
    obtain ⟨rc, hrc⟩ := exists_byteAt (show 0 < body.length by omega)
    rw [hrc, ok_bind, slips_bind, slips_readIf, slips_decodeProperties]
    simp [not_slips_ok]

theorem slips_decodeSubscribe : Slips (decodeSubscribe body version) ↔ HeadRunsOut version body := by
  unfold decodeSubscribe HeadRunsOut
  split
  · next hshort => exact iff_of_false (fun h => by cases slips_error.1 h) (by omega)
  · next hlong =>
    obtain ⟨packetId, hpid⟩ := exists_unpackH (show 0 + 2 ≤ body.length by omega)
    rw [hpid, ok_bind, slips_bind, slips_readIf, slips_decodeProperties]
    simp [slips_bind, not_slips_decodeSubscriptions, not_slips_ok, Nat.not_lt.1 hlong]

theorem slips_decodeSuback : Slips (decodeSuback body version) ↔ HeadRunsOut version body := by
  unfold decodeSuback HeadRunsOut
  split
  · next hshort => exact iff_of_false (fun h => by cases slips_error.1 h) (by omega)
  · next hlong =>
    obtain ⟨packetId, hpid⟩ := exists_unpackH (show 0 + 2 ≤ body.length by omega)
    rw [hpid, ok_bind, slips_bind, slips_readIf, slips_decodeProperties]
    simp [not_slips_ok, Nat.not_lt.1 hlong]

theorem slips_decodeUnsubscribe : Slips (decodeUnsubscribe body version) ↔ HeadRunsOut version body := by
  unfold decodeUnsubscribe HeadRunsOut
  split
  · next hshort => exact iff_of_false (fun h => by cases slips_error.1 h) (by omega)
  · next hlong =>
    obtain ⟨packetId, hpid⟩ := exists_unpackH (show 0 + 2 ≤ body.length by omega)
    rw [hpid, ok_bind, slips_bind, slips_readIf, slips_decodeProperties]
    simp [slips_bind, not_slips_decodeTopicFilters, not_slips_ok, Nat.not_lt.1 hlong]

theorem slips_decodeUnsuback : Slips (decodeUnsuback body version) ↔ HeadRunsOut version body := by
  unfold decodeUnsuback HeadRunsOut
  split
  · next hshort => exact iff_of_false (fun h => by cases slips_error.1 h) (by omega)
  · next hlong =>
    obtain ⟨packetId, hpid⟩ := exists_unpackH (show 0 + 2 ≤ body.length by omega)
    rw [hpid, ok_bind]
    split
    · next hv5 =>
      rw [slips_bind, slips_decodeProperties]
      simp [not_slips_ok, hv5, Nat.not_lt.1 hlong]
    · next hv => exact iff_of_false (not_slips_ok _) (fun h => hv h.1)

theorem slips_decodePublishId (pos : Nat) : ¬ Slips (decodePublishId body pos) := by
  intro h
  unfold decodePublishId at h
  split at h
  · cases slips_error.1 h
  · next hlong =>
    rcases slips_bind.1 h with h | ⟨pid, -, h⟩
    · exact hlong (slips_unpackH.1 h)
    · exact not_slips_ok _ h

/-- The packet id takes two bytes of the body. -/
theorem decodePublishId_takes {pos m : Nat} :
    (∃ packetId, decodePublishId body pos = .ok (packetId, m)) ↔ m = 2 ∧ pos + 2 ≤ body.length := by
  unfold decodePublishId
  split
  · next hshort =>
    refine iff_of_false ?_ (by omega)
    rintro ⟨packetId, h⟩
    cases h
  · next hlong =>
    obtain ⟨pid, hpid⟩ := exists_unpackH (Nat.not_lt.1 hlong)
    rw [hpid, ok_bind]
    simp only [Except.ok.injEq, Prod.mk.injEq]
    constructor
    · rintro ⟨packetId, -, hm⟩
      exact ⟨hm.symm, Nat.not_lt.1 hlong⟩
    · rintro ⟨hm, -⟩
      exact ⟨_, rfl, hm.symm⟩

theorem slips_decodePublish (flags : Nat) :
    Slips (decodePublish body flags version) ↔ Overreads version flags body .publish := by
  unfold decodePublish Overreads
  generalize hq : (flags >>> 1) &&& 0x03 = q
  constructor
  · intro h
    rcases slips_bind.1 h with h | ⟨qos, hqos, h⟩
    · exact absurd h (not_slips_ofVal _)
    rcases slips_bind.1 h with h | ⟨⟨topic, n⟩, htopic, h⟩
    · exact absurd h (not_slips_decodeStr _ _)
    rcases slips_bind.1 h with h | ⟨⟨packetId, m⟩, hpid, h⟩
    · exact absurd (slips_readIf.1 h).2 (slips_decodePublishId _ _)
    rcases slips_bind.1 h with h | ⟨props, -, h⟩
    · obtain ⟨hv5, hblock⟩ := slips_readIf.1 h
      rw [slips_decodeProperties] at hblock
      have hval := ofVal_eq_ok.1 hqos
      refine ⟨hv5, by rw [hval]; exact qos.val_ne_three, topic, n, htopic, ?_⟩
      by_cases hzero : qos = .atMostOnce
      · rw [readIf_neg (not_not.2 hzero)] at hpid
        cases hpid
        rw [if_pos (by rw [hval, hzero]; rfl)]
        exact hblock
      · rw [readIf_pos hzero] at hpid
        obtain ⟨rfl, hlong⟩ := (decodePublishId_takes body).1 ⟨packetId, hpid⟩
        rw [if_neg (by rw [hval]; exact fun h0 => hzero (QoS.val_eq_zero.1 h0))]
        exact ⟨hlong, hblock⟩
    · exact absurd h (not_slips_ok _)
  · rintro ⟨hv5, hne, topic, n, htopic, h⟩
    obtain ⟨qos, hqos⟩ := exists_ofVal (flags >>> 1) (by rw [hq]; exact hne)
    rw [hq] at hqos
    have hval := ofVal_eq_ok.1 hqos
    rw [hqos, ok_bind, htopic, ok_bind]
    dsimp only
    by_cases hzero : qos = .atMostOnce
    · rw [if_pos (by rw [hval, hzero]; rfl)] at h
      rw [readIf_neg (not_not.2 hzero), ok_bind, slips_bind, slips_readIf, slips_decodeProperties]
      exact .inl ⟨hv5, h⟩
    · rw [if_neg (by rw [hval]; exact fun h0 => hzero (QoS.val_eq_zero.1 h0))] at h
      obtain ⟨packetId, hpid⟩ := (decodePublishId_takes body).2 ⟨rfl, h.1⟩
      rw [readIf_pos hzero, hpid, ok_bind, slips_bind, slips_readIf, slips_decodeProperties]
      exact .inl ⟨hv5, h.2⟩

/-- Of the will, the property block alone is read without a check. -/
theorem slips_decodeWill (pos flags : Nat) (ver : Version) (willQos : QoS) :
    Slips (decodeWill body pos flags ver willQos) ↔ ver = .v5 ∧ BlockRunsOut body pos := by
  unfold decodeWill
  rw [slips_bind, slips_readIf, slips_decodeProperties]
  simp [slips_bind, not_slips_decodeStr, not_slips_decodeBytesField, not_slips_ok]

theorem slips_some? {α : Type} {part : Except PyError (α × Nat)} :
    Slips (some? part) ↔ Slips part := by
  unfold some?
  simp [slips_bind, not_slips_ok]

/-- CONNECT behind the client id, which ends at `pos`: the will, the user name, the password. -/
theorem slips_connectTail {β : Type} (pos flags : Nat) (ver : Version) (willQos : QoS)
    (f : Option Will × Nat → Option String × Nat → Option Bytes × Nat → β) :
    Slips (readIf (flags &&& 0x04 ≠ 0) (some? (decodeWill body pos flags ver willQos)) >>= fun will =>
      readIf (flags &&& 0x80 ≠ 0) (some? (decodeStr body (pos + will.2))) >>= fun username =>
      readIf (flags &&& 0x40 ≠ 0) (some? (decodeBytesField body (pos + will.2 + username.2))) >>=
        fun password => .ok (f will username password)) ↔
      flags &&& 0x04 ≠ 0 ∧ ver = .v5 ∧ BlockRunsOut body pos := by
  rw [slips_bind, slips_readIf, slips_some?, slips_decodeWill]
  simp [slips_bind, slips_readIf, slips_some?, not_slips_decodeStr, not_slips_decodeBytesField,
    not_slips_ok]

/-- The protocol level that CONNECT accepts. -/
theorem level_supported {level : UInt8} (h : ¬ (level ≠ 0x04 ∧ level ≠ 0x05)) :
    level = 0x04 ∨ level = 0x05 := by
  by_cases h4 : level = 0x04
  · exact .inl h4
  · exact .inr (not_not.1 fun h5 => h ⟨h4, h5⟩)

theorem connectRunsOut_of_slips (h : Slips (decodeConnect body)) :
    ∃ n, decodeStr body 0 = .ok ("MQTT", n) ∧ ConnectRunsOut body n := by
  unfold decodeConnect at h
  rcases slips_bind.1 h with h | ⟨⟨name, n⟩, hname, h⟩
  · exact absurd h (not_slips_decodeStr _ _)
  dsimp only at h
  split at h
  · cases slips_error.1 h
  next hmqtt =>
  obtain rfl := not_not.1 hmqtt
  refine ⟨n, hname, ?_⟩
  rcases slips_bind.1 h with h | ⟨level, hlevel, h⟩
  · exact .inl (slips_byteAt.1 h)
  split at h
  · cases slips_error.1 h
  next hsupported =>
  refine .inr ⟨level, byteAt_eq_ok.1 hlevel, level_supported hsupported, ?_⟩
  rcases slips_bind.1 h with h | ⟨flags, hflags, h⟩
  · exact .inl (slips_byteAt.1 h)
  refine .inr ⟨flags, byteAt_eq_ok.1 hflags, ?_⟩
  rcases slips_bind.1 h with h | ⟨willQos, hqos, h⟩
  · exact absurd h (not_slips_ofVal _)
  refine ⟨by rw [ofVal_eq_ok.1 hqos]; exact willQos.val_ne_three, ?_⟩
  rcases slips_bind.1 h with h | ⟨keepalive, -, h⟩
  · exact .inl (slips_unpackH.1 h)
  right
  rcases slips_bind.1 h with h | ⟨⟨props, m⟩, hprops, h⟩
  · obtain ⟨hv5, hblock⟩ := slips_readIf.1 h
    rw [slips_decodeProperties] at hblock
    refine ⟨?_, .inl hblock⟩
    by_contra hne
    simp [hne] at hv5
  rcases slips_bind.1 h with h | ⟨⟨clientId, k⟩, hclient, h⟩
  · exact absurd h (not_slips_decodeStr _ _)
  obtain ⟨hwill, hv5, hblock⟩ := (slips_connectTail body _ _ _ _ _).1 h
  rw [readIf_pos hv5] at hprops
  have htakes := (decodeProperties_takes _ _ _ _).1 ⟨props, hprops⟩
  refine ⟨?_, .inr ⟨m, clientId, k, htakes, hclient, hwill, hblock⟩⟩
  by_contra hne
  simp [hne] at hv5

theorem slips_of_connectRunsOut {n : Nat} (hname : decodeStr body 0 = .ok ("MQTT", n))
    (h : ConnectRunsOut body n) : Slips (decodeConnect body) := by
  unfold decodeConnect
  rw [hname, ok_bind]
  dsimp only
  rw [if_neg (not_not.2 rfl)]
  rcases h with hshort | ⟨level, hlevel, hsupported, h⟩
  · exact slips_bind.2 (.inl (slips_byteAt.2 hshort))
  have hlevels : ¬ (level ≠ 0x04 ∧ level ≠ 0x05) := by
    rintro ⟨h4, h5⟩
    exact hsupported.elim h4 h5
  rw [byteAt_eq_ok.2 hlevel, ok_bind, if_neg hlevels]
  rcases h with hshort | ⟨flags, hflags, hqos, h⟩
  · exact slips_bind.2 (.inl (slips_byteAt.2 hshort))
  obtain ⟨willQos, hwillQos⟩ := exists_ofVal _ hqos
  rw [byteAt_eq_ok.2 hflags, ok_bind, hwillQos, ok_bind]
  rcases h with hshort | ⟨hv5, h⟩
  · exact slips_bind.2 (.inl (slips_unpackH.2 hshort))
  by_cases hshort : body.length < n + 4
  · exact slips_bind.2 (.inl (slips_unpackH.2 hshort))
  obtain ⟨keepalive, hkeepalive⟩ := exists_unpackH (show n + 2 + 2 ≤ body.length by omega)
  rw [hkeepalive, ok_bind, readIf_pos (by rw [if_pos hv5])]
  rcases h with hblock | ⟨m, clientId, k, htakes, hclient, hwill, hblock⟩
  · exact slips_bind.2 (.inl ((slips_decodeProperties _ _ _).2 hblock))
  obtain ⟨props, hprops⟩ : ∃ props, decodeConnectProperties body (n + 4) = .ok (props, m) :=
    (decodeProperties_takes _ _ _ _).2 htakes
  rw [hprops, ok_bind]
  dsimp only
  rw [hclient, ok_bind]
  exact (slips_connectTail body _ _ _ _ _).2 ⟨hwill, by rw [if_pos hv5], hblock⟩

end BodyDecoders

/-- The decoder of a body slips if and only if the packet overreads it. -/
theorem slips_decodeBody (packetType : PacketType) (flags : Nat) (body : Bytes) (version : Version) :
    Slips (decodeBody packetType flags body version) ↔ Overreads version flags body packetType := by
  have hmap : ∀ {α : Type} (x : Except PyError α) (f : α → Packet),
      Slips (x >>= fun a => .ok (f a)) ↔ Slips x := by
    intro α x f
    simp [slips_bind, not_slips_ok]
  cases packetType with
  | connect =>
    refine (hmap _ _).trans ⟨connectRunsOut_of_slips body, ?_⟩
    rintro ⟨n, hname, h⟩
    exact slips_of_connectRunsOut body hname h
  | connack => exact (hmap _ _).trans (slips_decodeConnack body version)
  | publish => exact (hmap _ _).trans (slips_decodePublish body version flags)
  | puback => exact (hmap _ _).trans (slips_decodePubAckVariant body version)
  | pubrec => exact (hmap _ _).trans (slips_decodePubAckVariant body version)
  | pubrel => exact (hmap _ _).trans (slips_decodePubAckVariant body version)
  | pubcomp => exact (hmap _ _).trans (slips_decodePubAckVariant body version)
  | subscribe => exact (hmap _ _).trans (slips_decodeSubscribe body version)
  | suback => exact (hmap _ _).trans (slips_decodeSuback body version)
  | unsubscribe => exact (hmap _ _).trans (slips_decodeUnsubscribe body version)
  | unsuback => exact (hmap _ _).trans (slips_decodeUnsuback body version)
  | pingreq => exact iff_of_false (not_slips_ok _) not_false
  | pingresp => exact iff_of_false (not_slips_ok _) not_false
  | disconnect => exact (hmap _ _).trans (slips_decodeDisconnect body version)
  | auth => exact (hmap _ _).trans (slips_decodeAuth body)

/-! ## Packets -/

/-- The buffer begins with a whole packet that overreads its body. -/
def Overread (version : Version) (b : Bytes) : Prop :=
  ∃ first remaining k packetType, b[0]? = some first ∧
    remainingLengthLoop b 4 0 1 0 = .ok (some (remaining, k)) ∧ 1 + k + remaining ≤ b.length ∧
    PacketType.ofVal? ((first.toNat >>> 4) &&& 0x0F) = some packetType ∧
    Overreads version (first.toNat &&& 0x0F) ((b.drop (1 + k)).take remaining) packetType

/-- The remaining length takes at least one byte, and no more than the buffer has. -/
theorem remainingLengthLoop_takes {b : Bytes} {k i multiplier acc r n : Nat}
    (h : remainingLengthLoop b k i multiplier acc = .ok (some (r, n))) : i < n ∧ n < b.length := by
  induction k generalizing i multiplier acc with
  | zero => cases h
  | succ k ih =>
    rw [remainingLengthLoop] at h
    split at h
    · cases h
    · next byte hbyte =>
      have hlt := (List.getElem?_eq_some_iff.1 hbyte).1
      dsimp only at h
      split at h
      · cases h
        omega
      · have hn := ih h
        omega

theorem not_slips_remainingLengthLoop (b : Bytes) (k i multiplier acc : Nat) :
    ¬ Slips (remainingLengthLoop b k i multiplier acc) := by
  intro h
  induction k generalizing i multiplier acc with
  | zero => cases slips_error.1 h
  | succ k ih =>
    rw [remainingLengthLoop] at h
    split at h
    · exact not_slips_ok _ h
    · dsimp only at h
      split at h
      · exact not_slips_ok _ h
      · exact ih _ _ _ h

theorem slips_decode (b : Bytes) (version : Version) : Slips (decode b version) ↔ Overread version b := by
  constructor
  · intro h
    rw [decode] at h
    split at h
    · exact absurd h (not_slips_ok _)
    next hlong =>
    rcases slips_bind.1 h with h | ⟨first, hfirst, h⟩
    · exact absurd (slips_byteAt.1 h) (by omega)
    rcases slips_bind.1 h with h | ⟨r, hloop, h⟩
    · exact absurd h (not_slips_remainingLengthLoop _ _ _ _ _)
    rcases r with _ | ⟨remaining, k⟩
    · exact absurd h (not_slips_ok _)
    dsimp only at h
    split at h
    · exact absurd h (not_slips_ok _)
    next htotal =>
    split at h
    · cases slips_error.1 h
    next packetType htype =>
    rcases slips_bind.1 h with h | ⟨packet, -, h⟩
    · exact ⟨first, remaining, k, packetType, byteAt_eq_ok.1 hfirst, hloop, Nat.not_lt.1 htotal, htype,
        (slips_decodeBody _ _ _ _).1 h⟩
    · exact absurd h (not_slips_ok _)
  · rintro ⟨first, remaining, k, packetType, hfirst, hloop, htotal, htype, hover⟩
    have hk := remainingLengthLoop_takes hloop
    rw [decode, if_neg (by omega), byteAt_eq_ok.2 hfirst, ok_bind, hloop, ok_bind]
    dsimp only
    rw [if_neg (by omega)]
    simp only [htype]
    exact slips_bind.2 (.inl ((slips_decodeBody _ _ _ _).2 hover))

/-- A decoded packet takes its fixed header at least. -/
theorem two_le_of_decode {b : Bytes} {version : Version} {p : Packet} {n : Nat}
    (h : decode b version = .ok (some (p, n))) : 2 ≤ n := by
  rw [decode] at h
  split at h
  · cases h
  obtain ⟨first, -, h⟩ := bind_eq_ok.1 h
  obtain ⟨r, hloop, h⟩ := bind_eq_ok.1 h
  rcases r with _ | ⟨remaining, k⟩
  · cases h
  have hk := remainingLengthLoop_takes hloop
  dsimp only at h
  split at h
  · cases h
  · split at h
    · cases h
    · obtain ⟨packet, -, h⟩ := bind_eq_ok.1 h
      simp only [Except.ok.injEq, Option.some.injEq, Prod.mk.injEq] at h
      omega

/-- What `decode` may give: nothing yet, a packet of at least two bytes inside the buffer, or a
    `ValueError`. -/
def Disciplined (b : Bytes) : Except PyError (Option (Packet × Nat)) → Prop
  | .ok none => True
  | .ok (some (_, n)) => 2 ≤ n ∧ n ≤ b.length
  | .error e => e.isValueError = true

/-- **Error discipline.** `decode` gives nothing yet, gives a packet inside the buffer, or raises
    a `ValueError`, if and only if the packet does not come to a fixed width outside its body. -/
theorem decode_disciplined_iff (version : Version) (b : Bytes) :
    Disciplined b (decode b version) ↔ ¬ Overread version b := by
  rw [← slips_decode]
  match hd : decode b version with
  | .ok none => exact iff_of_true trivial (not_slips_ok _)
  | .ok (some (p, n)) =>
    exact iff_of_true ⟨two_le_of_decode hd, (decode_consumed hd).2⟩ (not_slips_ok _)
  | .error e =>
    rw [slips_error, Bool.not_eq_false]
    exact Iff.rfl

/-- A CONNACK whose property block declares one byte and has none, a CONNECT that ends after the
    protocol name, and a PUBLISH whose expiry interval has one byte of four. -/
theorem truncated_body_escapes :
    decode [0x20, 3, 0, 0, 1] .v5 = .error .indexError ∧
    decode [0x10, 6, 0, 4, 77, 81, 84, 84] .v5 = .error .indexError ∧
    decode [0x30, 5, 0, 0, 2, 0x02, 1] .v5 = .error .structError ∧
    ∃ version b, ¬ Disciplined b (decode b version) := by
  have hconnack : decode [0x20, 3, 0, 0, 1] .v5 = .error .indexError := by decide +kernel
  refine ⟨hconnack, by decide +kernel, by decide +kernel, .v5, [0x20, 3, 0, 0, 1], ?_⟩
  rw [hconnack]
  intro h
  cases h

end Zmqtt
