/-
  Where a property block ends (`decode_props_block`, `_internal/packets/properties.py`).

  The loop of the decoder asks whether the block has ended before each property id only, so the
  last property of a block may reach behind the declared end. `Fills` says that the properties
  end at the declared end exactly. A block that decodes is self-contained, that is, the same in
  every buffer with the same bytes from its offset to its end, if and only if its properties fill
  it.
-/
import Zmqtt.Lib.Readers
import Zmqtt.Packets.Codec

namespace Zmqtt

/-! ## The wire helpers are local -/

theorem decodeVarintLoop_inside {buf : Bytes} {offset : Nat} :
    ∀ {k i multiplier acc : Nat} {r : Nat × Nat},
      decodeVarintLoop buf offset k i multiplier acc = .ok r →
      i < r.2 ∧ offset + r.2 ≤ buf.length := by
  intro k
  induction k with
  | zero =>
    intro i multiplier acc r h
    cases h
  | succ k ih =>
    intro i multiplier acc r h
    unfold decodeVarintLoop at h
    split at h
    · cases h
    · next byte hbyte =>
      have hlt := (List.getElem?_eq_some_iff.1 hbyte).1
      dsimp only at h
      split at h
      · cases h
        dsimp only
        omega
      · obtain ⟨hi, hlength⟩ := ih h
        omega

theorem decodeVarintLoop_agree {buf buf' : Bytes} {offset : Nat} :
    ∀ {k i multiplier acc : Nat} {r : Nat × Nat},
      decodeVarintLoop buf offset k i multiplier acc = .ok r →
      AgreeOn buf buf' offset (offset + r.2) →
      decodeVarintLoop buf' offset k i multiplier acc = .ok r := by
  intro k
  induction k with
  | zero =>
    intro i multiplier acc r h
    cases h
  | succ k ih =>
    intro i multiplier acc r h hagree
    obtain ⟨hi, -⟩ := decodeVarintLoop_inside h
    unfold decodeVarintLoop at h ⊢
    rw [hagree (offset + i) (by omega) (by omega)]
    split at h
    · cases h
    · next byte hbyte =>
      dsimp only at h ⊢
      split at h
      · next hlast =>
        rw [if_pos hlast]
        exact h
      · next hmore =>
        rw [if_neg hmore]
        exact ih h hagree

theorem isLocal_decodeVarint : OffsetReader.IsLocal decodeVarint :=
  ⟨fun h => (decodeVarintLoop_inside h).2, fun h hagree => decodeVarintLoop_agree h hagree⟩

/-- What a length-prefixed field takes. -/
theorem decodeBytesField_eq_ok {buf data : Bytes} {pos n : Nat}
    (h : decodeBytesField buf pos = .ok (data, n)) :
    ∃ length, unpackH buf pos = .ok length ∧ n = 2 + length ∧ pos + n ≤ buf.length ∧
      data = (buf.drop (pos + 2)).take length := by
  unfold decodeBytesField at h
  split at h
  · cases h
  · obtain ⟨length, hlength, h⟩ := bind_eq_ok.mp h
    dsimp only at h
    split at h
    · cases h
    · cases h
      exact ⟨length, hlength, rfl, by omega, rfl⟩

theorem decodeStr_eq_ok {buf : Bytes} {pos n : Nat} {s : String} (h : decodeStr buf pos = .ok (s, n)) :
    ∃ data, decodeBytesField buf pos = .ok (data, n) ∧ utf8Decode data = .ok s := by
  unfold decodeStr at h
  unfold decodeBytesField
  split at h
  · cases h
  · next hprefix =>
    rw [if_neg hprefix]
    obtain ⟨length, hlength, h⟩ := bind_eq_ok.mp h
    rw [hlength, ok_bind]
    dsimp only at h ⊢
    split at h
    · cases h
    · next hdata =>
      rw [if_neg hdata]
      obtain ⟨s', hs, h⟩ := bind_eq_ok.mp h
      cases h
      exact ⟨_, rfl, hs⟩

theorem isLocal_decodeBytesField : OffsetReader.IsLocal decodeBytesField := by
  refine ⟨fun {buf pos a n} h => ?_, fun {buf buf' pos a n} h hagree => ?_⟩
  · obtain ⟨length, -, -, hle, -⟩ := decodeBytesField_eq_ok h
    exact hle
  · obtain ⟨length, hlength, hn, hle, hdata⟩ := decodeBytesField_eq_ok h
    have hlength' := hlength
    rw [← unpackH_congr (hagree.mono (Nat.le_refl _) (by omega))] at hlength'
    have hle' := hagree.le_length (by omega) hle
    unfold decodeBytesField
    rw [if_neg (by omega), hlength', ok_bind]
    dsimp only
    rw [if_neg (by omega), (hagree.mono (show pos ≤ pos + 2 by omega) (Nat.le_refl _)).slice (by omega),
      hdata, hn]

theorem isLocal_decodeStr : OffsetReader.IsLocal decodeStr := by
  refine ⟨fun {buf pos a n} h => ?_, fun {buf buf' pos s n} h hagree => ?_⟩
  · obtain ⟨data, hdata, -⟩ := decodeStr_eq_ok h
    exact isLocal_decodeBytesField.inside hdata
  · obtain ⟨data, hdata, hs⟩ := decodeStr_eq_ok h
    have hdata' := isLocal_decodeBytesField.agree hdata hagree
    obtain ⟨length, hlength, hn, hle, heq⟩ := decodeBytesField_eq_ok hdata'
    unfold decodeStr
    rw [if_neg (by omega), hlength, ok_bind]
    dsimp only
    rw [if_neg (by omega), ← heq, hs, hn]
    rfl

/-- The pairs of a property that were read before. -/
def pairsOf (d : PropDict) (pid : PropertyID) : List (String × String) :=
  match Dict.get? d pid with
  | some (.pairs l) => l
  | _ => []

theorem isLocal_decodeProp (pid : PropertyID) (d : PropDict) :
    OffsetReader.IsLocal fun buf pos => decodeProp buf pid pos d := by
  unfold decodeProp
  cases pid.wireType with
  | byte =>
    refine ⟨fun h => ?_, fun h hagree => ?_⟩
    · obtain ⟨b, hb, h⟩ := bind_eq_ok.mp h
      cases h
      exact lt_of_byteAt hb
    · obtain ⟨b, hb, h⟩ := bind_eq_ok.mp h
      cases h
      dsimp only
      rw [byteAt_congr hagree, hb, ok_bind]
  | uint16 =>
    refine ⟨fun h => ?_, fun h hagree => ?_⟩
    · obtain ⟨b, hb, h⟩ := bind_eq_ok.mp h
      cases h
      exact le_of_unpackH hb
    · obtain ⟨b, hb, h⟩ := bind_eq_ok.mp h
      cases h
      dsimp only
      rw [unpackH_congr hagree, hb, ok_bind]
  | uint32 =>
    refine ⟨fun h => ?_, fun h hagree => ?_⟩
    · obtain ⟨b, hb, h⟩ := bind_eq_ok.mp h
      cases h
      exact le_of_unpackI hb
    · obtain ⟨b, hb, h⟩ := bind_eq_ok.mp h
      cases h
      dsimp only
      rw [unpackI_congr hagree, hb, ok_bind]
  | varint => exact isLocal_decodeVarint.map fun val => Dict.set d pid (.int val)
  | str => exact isLocal_decodeStr.map fun val => Dict.set d pid (.str val)
  | bytesData => exact isLocal_decodeBytesField.map fun val => Dict.set d pid (.bytes val)
  | pair =>
    have hpair := (isLocal_decodeStr.seq isLocal_decodeStr).map fun kv =>
      Dict.set d pid (.pairs (pairsOf d pid ++ [kv]))
    refine cast (congrArg OffsetReader.IsLocal ?_) hpair
    funext buf pos
    cases decodeStr buf pos with
    | error e => rfl
    | ok r =>
      obtain ⟨k, kn⟩ := r
      simp only [ok_bind]
      cases decodeStr buf (pos + kn) with
      | error e => rfl
      | ok r' => rfl

/-! ## Where the properties end -/

open PropertyID (WireType)

/-- The bytes of a length-prefixed field at `pos`. -/
def fieldLength (buf : Bytes) (pos : Nat) : Option Nat :=
  (unpackH buf pos).toOption.map fun length => 2 + length

/-- The bytes of a property value at `pos`. -/
def valueLength (buf : Bytes) (pos : Nat) : WireType → Option Nat
  | .byte => some 1
  | .uint16 => some 2
  | .uint32 => some 4
  | .varint => (decodeVarint buf pos).toOption.map Prod.snd
  | .str | .bytesData => fieldLength buf pos
  | .pair => do
      let k ← fieldLength buf pos
      let v ← fieldLength buf (pos + k)
      some (k + v)

/-- The properties from `pos` on end at `fin` exactly. -/
inductive Fills (buf : Bytes) (fin : Nat) : Nat → Prop where
  | done : Fills buf fin fin
  | property {pos n : Nat} {b : UInt8} {pid : PropertyID} (hlt : pos < fin) (hb : buf[pos]? = some b)
      (hpid : PropertyID.ofVal? b = some pid)
      (hlength : valueLength buf (pos + 1) pid.wireType = some n)
      (hrest : Fills buf fin (pos + 1 + n)) : Fills buf fin pos

/-- The properties of the block at `offset` fill its declared length. -/
def Delimited (buf : Bytes) (offset : Nat) : Prop :=
  ∃ propsLen n, decodeVarint buf offset = .ok (propsLen, n) ∧
    Fills buf (offset + n + propsLen) (offset + n)

variable {buf buf' : Bytes} {pos fin : Nat}

theorem fieldLength_of_decodeStr {s : String} {n : Nat} (h : decodeStr buf pos = .ok (s, n)) :
    fieldLength buf pos = some n := by
  obtain ⟨data, hdata, -⟩ := decodeStr_eq_ok h
  obtain ⟨length, hlength, hn, -, -⟩ := decodeBytesField_eq_ok hdata
  unfold fieldLength
  rw [hlength, hn]
  rfl

theorem fieldLength_of_decodeBytesField {data : Bytes} {n : Nat}
    (h : decodeBytesField buf pos = .ok (data, n)) : fieldLength buf pos = some n := by
  obtain ⟨length, hlength, hn, -, -⟩ := decodeBytesField_eq_ok h
  unfold fieldLength
  rw [hlength, hn]
  rfl

/-- A property takes the bytes of its value. -/
theorem valueLength_of_decodeProp {pid : PropertyID} {d d' : PropDict} {n : Nat}
    (h : decodeProp buf pid pos d = .ok (d', n)) : valueLength buf pos pid.wireType = some n := by
  unfold decodeProp at h
  unfold valueLength
  cases hw : pid.wireType with
  | byte | uint16 | uint32 =>
    rw [hw] at h
    obtain ⟨value, -, h⟩ := bind_eq_ok.mp h
    cases h
    rfl
  | varint =>
    rw [hw] at h
    obtain ⟨⟨value, k⟩, hvalue, h⟩ := bind_eq_ok.mp h
    cases h
    dsimp only
    rw [hvalue]
    rfl
  | str =>
    rw [hw] at h
    obtain ⟨⟨value, k⟩, hvalue, h⟩ := bind_eq_ok.mp h
    cases h
    exact fieldLength_of_decodeStr hvalue
  | bytesData =>
    rw [hw] at h
    obtain ⟨⟨value, k⟩, hvalue, h⟩ := bind_eq_ok.mp h
    cases h
    exact fieldLength_of_decodeBytesField hvalue
  | pair =>
    rw [hw] at h
    obtain ⟨⟨key, k⟩, hkey, h⟩ := bind_eq_ok.mp h
    obtain ⟨⟨value, v⟩, hvalue, h⟩ := bind_eq_ok.mp h
    cases h
    dsimp only
    rw [fieldLength_of_decodeStr hkey, Option.bind_eq_bind, Option.bind_some,
      fieldLength_of_decodeStr hvalue]
    rfl

/-- One turn of the loop of `decode_props_block`. -/
theorem decodePropsLoop_eq_ok {d d' : PropDict} (h : decodePropsLoop buf fin pos d = .ok d')
    (hlt : pos < fin) :
    ∃ b pid d₁ n, byteAt buf pos = .ok b ∧ PropertyID.ofVal? b = some pid ∧
      decodeProp buf pid (pos + 1) d = .ok (d₁, n) ∧
      decodePropsLoop buf fin (pos + 1 + n) d₁ = .ok d' := by
  rw [decodePropsLoop, dif_pos hlt] at h
  obtain ⟨b, hb, h⟩ := bind_eq_ok.mp h
  dsimp only at h
  split at h
  · cases h
  · next pid hpid =>
    obtain ⟨⟨d₁, n⟩, hprop, h⟩ := bind_eq_ok.mp h
    exact ⟨b, pid, d₁, n, hb, hpid, hprop, h⟩

theorem Fills.le (h : Fills buf fin pos) : pos ≤ fin := by
  induction h with
  | done => exact Nat.le_refl _
  | property hlt _ _ _ _ _ => omega

/-- The loop reads nothing behind the end of properties that fill their block. -/
theorem Fills.agree (h : Fills buf fin pos) {d d' : PropDict}
    (hloop : decodePropsLoop buf fin pos d = .ok d') (hagree : AgreeOn buf buf' pos fin) :
    decodePropsLoop buf' fin pos d = .ok d' := by
  induction h generalizing d with
  | done =>
    rw [decodePropsLoop, dif_neg (Nat.lt_irrefl _)] at hloop ⊢
    exact hloop
  | @property pos n b pid hlt hb hpid hlength hrest ih =>
    obtain ⟨b', pid', d₁, n', hb', hpid', hprop, hloop⟩ := decodePropsLoop_eq_ok hloop hlt
    have hsame : b' = b := by
      unfold byteAt at hb'
      rw [hb] at hb'
      exact (Except.ok.inj hb').symm
    subst hsame
    rw [hpid] at hpid'
    obtain rfl := Option.some.inj hpid'
    have hn : n = n' := Option.some.inj (hlength.symm.trans (valueLength_of_decodeProp hprop))
    subst hn
    have hle := hrest.le
    have hprop' := (isLocal_decodeProp pid d).agree hprop (hagree.mono (by omega) (by omega))
    rw [decodePropsLoop, dif_pos hlt, byteAt_congr (hagree.mono (Nat.le_refl _) (by omega)), hb', ok_bind]
    simp only [hpid]
    rw [hprop', ok_bind]
    exact ih hloop (hagree.mono (by omega) (Nat.le_refl _))

/-- Properties that can be read from the block alone fill it. -/
theorem fills_of_take {d d' : PropDict} (hle : pos ≤ fin)
    (h : decodePropsLoop (buf.take fin) fin pos d = .ok d') : Fills buf fin pos := by
  induction hk : fin - pos using Nat.strong_induction_on generalizing pos d with
  | _ k ih =>
    by_cases hlt : pos < fin
    · obtain ⟨b, pid, d₁, n, hb, hpid, hprop, hloop⟩ := decodePropsLoop_eq_ok h hlt
      obtain ⟨hprop', hinside⟩ := (isLocal_decodeProp pid d).of_take hprop
      have hget : buf[pos]? = some b := by
        unfold byteAt at hb
        rw [agreeOn_take buf pos fin pos (Nat.le_refl _) hlt] at hb
        split at hb
        · next hget =>
          rw [hget]
          exact congrArg some (Except.ok.inj hb)
        · cases hb
      exact Fills.property hlt hget hpid (valueLength_of_decodeProp hprop')
        (ih (fin - (pos + 1 + n)) (by omega) hinside hloop rfl)
    · have heq : pos = fin := by omega
      rw [heq]
      exact Fills.done

/-! ## Self-contained blocks -/

/-- A buffer with the same bytes in the block gives the same. -/
def SelfContained (buf : Bytes) (offset : Nat) (d : PropDict) (c : Nat) : Prop :=
  ∀ buf', AgreeOn buf buf' offset (offset + c) → decodePropsBlock buf' offset = .ok (d, c)

/-- **Self-contained blocks.** A block that decodes does so from its own bytes, whatever follows
    them, if and only if its properties end where its declared length ends. -/
theorem props_block_self_contained {offset : Nat} {d : PropDict} {c : Nat}
    (h : decodePropsBlock buf offset = .ok (d, c)) :
    SelfContained buf offset d c ↔ Delimited buf offset := by
  obtain ⟨⟨propsLen, n⟩, hvarint, hblock⟩ := bind_eq_ok.mp h
  obtain ⟨d', hloop, hresult⟩ := bind_eq_ok.mp hblock
  cases hresult
  constructor
  · intro hself
    -- the buffer that is cut off right after the block
    have hcut := hself (buf.take (offset + (n + propsLen))) (agreeOn_take _ _ _)
    obtain ⟨⟨propsLen', n'⟩, hvarint', hblock'⟩ := bind_eq_ok.mp hcut
    obtain ⟨d'', hloop', hresult⟩ := bind_eq_ok.mp hblock'
    have hlocal := (isLocal_decodeVarint.of_take hvarint').1
    rw [hvarint] at hlocal
    cases hlocal
    rw [← Nat.add_assoc] at hloop'
    exact ⟨propsLen, n, hvarint, fills_of_take (Nat.le_add_right _ _) hloop'⟩
  · rintro ⟨propsLen', n', hvarint', hfills⟩ buf' hagree
    rw [hvarint] at hvarint'
    cases hvarint'
    have hvarint'' := isLocal_decodeVarint.agree hvarint (hagree.mono (Nat.le_refl _) (by omega))
    have hloop' := hfills.agree hloop (hagree.mono (by omega) (by omega))
    unfold decodePropsBlock
    rw [hvarint'', ok_bind]
    dsimp only
    rw [hloop', ok_bind]

/-- A block with a 16-bit and a string property, before two more bytes. -/
theorem props_block_self_contained_twoProperties :
    SelfContained [7, 0x23, 0, 5, 0x03, 0, 1, 116, 0x21, 0] 0
      [(.topicAlias, .int 5), (.contentType, .str "t")] 8 := by
  refine (props_block_self_contained (by decide +kernel)).2 ⟨7, 1, by decide +kernel, ?_⟩
  exact .property (by decide) rfl rfl rfl (.property (by decide) rfl rfl rfl .done)

/-- The block `02 01` declares two bytes, and its expiry interval takes three more from the
    payload: the PUBLISH is accepted, and the three bytes are read twice. -/
theorem overrunning_property_accepted :
    decodePropsBlock [2, 0x02, 1, 2, 3, 4, 5] 0 =
      .ok ([(.messageExpiryInterval, .int 0x01020304)], 3) ∧
    ¬ SelfContained [2, 0x02, 1, 2, 3, 4, 5] 0 [(.messageExpiryInterval, .int 0x01020304)] 3 ∧
    decode [0x30, 10, 0, 1, 97, 2, 0x02, 1, 2, 3, 4, 5] .v5 = .ok (some (.publish
      { topic := "a", payload := [2, 3, 4, 5], qos := .atMostOnce, retain := false, dup := false
        properties := some { messageExpiryInterval := some 0x01020304 } }, 12)) := by
  refine ⟨by decide +kernel, fun h => ?_, by decide +kernel⟩
  have hcut := h [2, 0x02, 1] (by
    intro i _ hi
    interval_cases i <;> rfl)
  revert hcut
  decide +kernel

end Zmqtt
