/-
  Decoding and encoding again (`decode` and `encode`, `_internal/packets/codec.py`).

  The decoder accepts more than the encoder writes: lengths that are longer than they need to be,
  repeated properties, properties that the packet type does not have, bytes behind the last field.
  What it makes of them is in the range of every encoder (`Fits`), so that `encode` succeeds; and
  it is in normal form but for one case, a property record without any property, which comes from a
  block of foreign properties and is read as `None` the second time (`withoutEmpty`).
-/
import Zmqtt.Lib.Writers
import Zmqtt.Packets.SelfContained
import Zmqtt.Packets.ErrorDiscipline

namespace Zmqtt

/-! ## Wire helpers -/

section Wire

variable {buf : Bytes} {pos n : Nat}

theorem length_encodeVarintLoop {k : Nat} (hk : 0 < k) {value : Nat} (h : value < 128 ^ k) :
    (encodeVarintLoop value).length ≤ k := by
  induction k generalizing value with
  | zero => omega
  | succ k ih =>
    rw [encodeVarintLoop]
    split
    · simp
    · next hz =>
      have hdiv : value / 128 < 128 ^ k := by
        rw [Nat.div_lt_iff_lt_mul (by decide), ← Nat.pow_succ]
        exact h
      have hpos : 0 < k := by
        rcases Nat.eq_zero_or_pos k with rfl | hpos
        · omega
        · exact hpos
      have hrest := ih hpos hdiv
      rw [List.length_cons]
      omega

theorem fits_encodeVarint {value : Nat} (h : value ≤ maxMqttVarint) : Fits (encodeVarint value) 4 := by
  unfold encodeVarint
  rw [if_neg (by omega)]
  have hpow : (128 : Nat) ^ 4 = 268435456 := by decide
  unfold maxMqttVarint at h
  exact fits_ok (length_encodeVarintLoop (by decide) (by rw [Int.toNat_natCast]; omega))

/-- Four groups of seven bits stay below the limit of a variable-length integer. -/
theorem decodeVarint_range {value : Nat} (h : decodeVarint buf pos = .ok (value, n)) :
    value ≤ maxMqttVarint := by
  have hloop : ∀ {k i multiplier acc : Nat} {r : Nat × Nat},
      decodeVarintLoop buf pos k i multiplier acc = .ok r → acc < multiplier →
      r.1 < multiplier * 128 ^ k := by
    intro k
    induction k with
    | zero =>
      intro i multiplier acc r h
      cases h
    | succ k ih =>
      intro i multiplier acc r h hacc
      unfold decodeVarintLoop at h
      split at h
      · cases h
      · next byte _ =>
        dsimp only at h
        have hstep : acc + (byte &&& 0x7F).toNat * multiplier < multiplier * 128 := by
          rw [and_7F_toNat]
          have hle : byte.toNat % 128 * multiplier ≤ 127 * multiplier :=
            Nat.mul_le_mul_right _ (by omega)
          omega
        have hpow : multiplier * 128 ^ (k + 1) = multiplier * 128 * 128 ^ k := by
          rw [Nat.pow_succ, Nat.mul_assoc, Nat.mul_comm (128 ^ k)]
        rw [hpow]
        split at h
        · cases h
          exact Nat.lt_of_lt_of_le hstep (Nat.le_mul_of_pos_right _ (Nat.pow_pos (by decide)))
        · exact ih h hstep
  have hlt := hloop h (by decide)
  have hpow : 1 * (128 : Nat) ^ 4 = 268435456 := by decide
  unfold maxMqttVarint
  omega

/-- The bytes of a decoded text are the bytes it was decoded from. -/
theorem utf8Encode_of_utf8Decode {data : Bytes} {s : String} (h : utf8Decode data = .ok s) :
    utf8Encode s = data := by
  unfold utf8Decode at h
  split at h
  · next s' hs =>
    obtain rfl := Except.ok.inj h
    unfold String.fromUTF8? at hs
    split at hs
    · obtain rfl := Option.some.inj hs
      simp [utf8Encode, String.fromUTF8]
    · cases hs
  · cases h

theorem decodeBytesField_size {data : Bytes} (h : decodeBytesField buf pos = .ok (data, n)) :
    n = 2 + data.length ∧ data.length ≤ 65535 := by
  obtain ⟨length, hlength, hn, hle, hdata⟩ := decodeBytesField_eq_ok h
  have hrange := unpackH_range hlength
  have hlen : data.length = length := by
    rw [hdata, List.length_take, List.length_drop]
    omega
  omega

theorem decodeStr_size {s : String} (h : decodeStr buf pos = .ok (s, n)) :
    n = 2 + (utf8Encode s).length ∧ (utf8Encode s).length ≤ 65535 := by
  obtain ⟨data, hdata, hs⟩ := decodeStr_eq_ok h
  rw [utf8Encode_of_utf8Decode hs]
  exact decodeBytesField_size hdata

/-- A text is written in the bytes it was read from. -/
theorem fits_encodeStr {s : String} (h : decodeStr buf pos = .ok (s, n)) : Fits (encodeStr s) n := by
  obtain ⟨hn, hle⟩ := decodeStr_size h
  unfold encodeStr
  refine (fits_packH (by omega)).bind fun len hlen => fits_ok ?_
  rw [List.length_append]
  omega

theorem fits_encodeBytesField {data : Bytes} (h : decodeBytesField buf pos = .ok (data, n)) :
    Fits (encodeBytesField data) n := by
  obtain ⟨hn, hle⟩ := decodeBytesField_size h
  unfold encodeBytesField
  refine (fits_packH (by omega)).bind fun len hlen => fits_ok ?_
  rw [List.length_append]
  omega

end Wire

/-! ## Property blocks -/

open PropertyID (WireType)

/-- The bytes of the longest property that has one value: its id and a full length-prefixed
    field. -/
def maxProperty : Nat := 65538

/-- Every property of the dictionary can be encoded; the pairs of user properties take `m` bytes
    at most. -/
def Encodable (m : Nat) (d : PropDict) : Prop :=
  ∀ pid value, Dict.get? d pid = some value →
    Fits (encodeProp pid value) (if pid.wireType = .pair then m else maxProperty)

section Encodable

variable {buf : Bytes} {pos fin n m k : Nat} {d d' : PropDict} {pid : PropertyID} {value : PropVal}

theorem encodable_nil : Encodable m [] := by
  intro pid value h
  cases h

theorem Encodable.mono (h : Encodable m d) (hle : m ≤ k) : Encodable k d := by
  intro pid value hget
  refine (h pid value hget).mono ?_
  split <;> omega

/-- A new value that can be encoded. -/
theorem Encodable.set (h : Encodable m d)
    (hvalue : Fits (encodeProp pid value) (if pid.wireType = .pair then m else maxProperty)) :
    Encodable m (Dict.set d pid value) := by
  intro pid' value' hget
  rw [Dict.get?_set] at hget
  split at hget
  · next heq =>
    cases hget
    rw [← heq]
    exact hvalue
  · exact h pid' value' hget

theorem fits_encodePairs_append {l : UserProperties} {key val : String} {a b c : Nat}
    (hl : Fits (encodePairs pid l) a) (hkey : Fits (encodeStr key) b) (hval : Fits (encodeStr val) c) :
    Fits (encodePairs pid (l ++ [(key, val)])) (a + (1 + b + c)) := by
  induction l generalizing a with
  | nil =>
    rw [List.nil_append, encodePairs]
    refine hkey.bind fun kb hkb => hval.bind fun vb hvb => fits_ok ?_
    simp only [List.append_nil, List.length_cons, List.length_append]
    omega
  | cons kv l ih =>
    obtain ⟨key', val'⟩ := kv
    obtain ⟨bs, hbs, hlen⟩ := hl
    obtain ⟨kb, hkb, hbs⟩ := bind_eq_ok.mp hbs
    obtain ⟨vb, hvb, hbs⟩ := bind_eq_ok.mp hbs
    obtain ⟨rest, hrest, hbs⟩ := bind_eq_ok.mp hbs
    cases hbs
    rw [List.length_append] at hlen
    rw [List.cons_append, encodePairs, hkb, ok_bind, hvb, ok_bind]
    refine (ih ⟨rest, hrest, Nat.le_refl _⟩).bind fun bs' hbs' => fits_ok ?_
    rw [List.length_append]
    omega

/-- The property that is read can be encoded. -/
theorem encodable_decodeProp (h : decodeProp buf pid (pos + 1) d = .ok (d', n)) (hd : Encodable pos d) :
    Encodable (pos + 1 + n) d' := by
  unfold decodeProp at h
  have hmono := hd.mono (show pos ≤ pos + 1 + n by omega)
  -- the id is followed by a value of `k` bytes
  have hsingle : ∀ {value : PropVal} {write : Except PyError Bytes} {k : Nat},
      pid.wireType ≠ .pair → encodeProp pid value = (write >>= fun bs => .ok (pid.val :: bs)) →
      Fits write k → k + 1 ≤ maxProperty → Encodable (pos + 1 + n) (Dict.set d pid value) := by
    intro value write k hne hencode hwrite hk
    refine hmono.set ?_
    rw [if_neg hne, hencode]
    refine hwrite.bind fun bs hlen => fits_ok ?_
    rw [List.length_cons]
    omega
  unfold maxProperty at hsingle
  cases hw : pid.wireType with
  | byte =>
    rw [hw] at h
    obtain ⟨b, -, h⟩ := bind_eq_ok.mp h
    cases h
    exact hsingle (by rw [hw]; decide) (by unfold encodeProp; rw [hw]) (fits_packB (byte_range b)) (by omega)
  | uint16 =>
    rw [hw] at h
    obtain ⟨value, hvalue, h⟩ := bind_eq_ok.mp h
    cases h
    exact hsingle (by rw [hw]; decide) (by unfold encodeProp; rw [hw]) (fits_packH (unpackH_range hvalue))
      (by omega)
  | uint32 =>
    rw [hw] at h
    obtain ⟨value, hvalue, h⟩ := bind_eq_ok.mp h
    cases h
    exact hsingle (by rw [hw]; decide) (by unfold encodeProp; rw [hw]) (fits_packI (unpackI_range hvalue))
      (by omega)
  | varint =>
    rw [hw] at h
    obtain ⟨⟨value, k⟩, hvalue, h⟩ := bind_eq_ok.mp h
    cases h
    exact hsingle (by rw [hw]; decide) (by unfold encodeProp; rw [hw])
      (fits_encodeVarint (decodeVarint_range hvalue)) (by omega)
  | str =>
    rw [hw] at h
    obtain ⟨⟨value, k⟩, hvalue, h⟩ := bind_eq_ok.mp h
    cases h
    have hsize := decodeStr_size hvalue
    exact hsingle (by rw [hw]; decide) (by unfold encodeProp; rw [hw]) (fits_encodeStr hvalue) (by omega)
  | bytesData =>
    rw [hw] at h
    obtain ⟨⟨value, k⟩, hvalue, h⟩ := bind_eq_ok.mp h
    cases h
    have hsize := decodeBytesField_size hvalue
    exact hsingle (by rw [hw]; decide) (by unfold encodeProp; rw [hw]) (fits_encodeBytesField hvalue)
      (by omega)
  | pair =>
    rw [hw] at h
    obtain ⟨⟨key, k⟩, hkey, h⟩ := bind_eq_ok.mp h
    obtain ⟨⟨val, v⟩, hval, h⟩ := bind_eq_ok.mp h
    cases h
    refine hmono.set ?_
    rw [if_pos hw]
    have hstored : Fits (encodePairs pid (pairsOf d pid)) pos := by
      unfold pairsOf
      split
      · next l hget =>
        have hl := hd pid _ hget
        rw [if_pos hw] at hl
        unfold encodeProp at hl
        rw [hw] at hl
        exact hl
      · exact fits_ok (Nat.zero_le _)
    unfold encodeProp
    rw [hw]
    exact (fits_encodePairs_append hstored (fits_encodeStr hkey) (fits_encodeStr hval)).mono (by omega)

/-- Every property of a block can be encoded. -/
theorem encodable_decodePropsLoop (h : decodePropsLoop buf fin pos d = .ok d') (hd : Encodable pos d)
    (hpos : pos ≤ buf.length) : Encodable buf.length d' := by
  induction hk : fin - pos using Nat.strong_induction_on generalizing pos d with
  | _ k ih =>
    by_cases hlt : pos < fin
    · obtain ⟨b, pid, d₁, n, -, -, hprop, hloop⟩ := decodePropsLoop_eq_ok h hlt
      have hinside := (isLocal_decodeProp pid d).inside hprop
      exact ih (fin - (pos + 1 + n)) (by omega) hloop (encodable_decodeProp hprop hd) hinside rfl
    · rw [decodePropsLoop, dif_neg hlt] at h
      cases h
      exact hd.mono hpos

theorem encodable_decodePropsBlock (h : decodePropsBlock buf pos = .ok (d, n)) : Encodable buf.length d := by
  obtain ⟨⟨propsLen, k⟩, hvarint, h⟩ := bind_eq_ok.mp h
  obtain ⟨d', hloop, h⟩ := bind_eq_ok.mp h
  cases h
  exact encodable_decodePropsLoop hloop encodable_nil (isLocal_decodeVarint.inside hvarint)

end Encodable

/-! ## Property records -/

/-- A field that is not set, or can be encoded. -/
def FieldFits (pid : PropertyID) (v : Option PropVal) : Prop :=
  ∀ value, v = some value → Fits (encodeProp pid value) maxProperty

section FieldFits

variable {pid : PropertyID} {v : Option PropVal} {d : PropDict}

@[simp] theorem fieldFits_int (h : FieldFits pid v) : FieldFits pid ((PropVal.int? v).map .int) := by
  intro value hvalue
  obtain ⟨n, hn, rfl⟩ := Option.map_eq_some_iff.mp hvalue
  unfold PropVal.int? at hn
  split at hn
  · cases hn
    exact h _ rfl
  · cases hn

@[simp] theorem fieldFits_str (h : FieldFits pid v) : FieldFits pid ((PropVal.str? v).map .str) := by
  intro value hvalue
  obtain ⟨s, hs, rfl⟩ := Option.map_eq_some_iff.mp hvalue
  unfold PropVal.str? at hs
  split at hs
  · cases hs
    exact h _ rfl
  · cases hs

@[simp] theorem fieldFits_bytes (h : FieldFits pid v) :
    FieldFits pid ((PropVal.bytes? v).map .bytes) := by
  intro value hvalue
  obtain ⟨b, hb, rfl⟩ := Option.map_eq_some_iff.mp hvalue
  unfold PropVal.bytes? at hb
  split at hb
  · cases hb
    exact h _ rfl
  · cases hb

/-- Any byte is read as a flag, and the flag is written as 0 or 1. -/
@[simp] theorem fieldFits_bool (h : pid.wireType = .byte) :
    FieldFits pid ((PropVal.bool? v).map .ofBool) := by
  intro value hvalue
  obtain ⟨b, -, rfl⟩ := Option.map_eq_some_iff.mp hvalue
  unfold encodeProp PropVal.ofBool
  rw [h]
  have hrange : (0 : Int) ≤ (if b then 1 else 0) ∧ (if b then (1 : Int) else 0) ≤ 255 := by
    cases b <;> decide
  refine (fits_packB hrange).bind fun bs hlen => fits_ok ?_
  rw [List.length_cons]
  unfold maxProperty
  omega

/-- The items of a record fit when its fields do. -/
theorem fits_recordDict {items : List (PropertyID × Option PropVal)}
    (hitems : ∀ item ∈ items, FieldFits item.1 item.2)
    (hd : ∀ pid, FieldFits pid (Dict.get? d pid)) :
    ∀ item ∈ recordDict items (upTuple d), Fits (encodeProp item.1 item.2) maxProperty := by
  intro item hitem
  rcases List.mem_append.mp hitem with hitem | hitem
  · induction items with
    | nil => cases hitem
    | cons it items ih =>
      obtain ⟨pid, v⟩ := it
      have hrest : ∀ item ∈ items, FieldFits item.1 item.2 :=
        fun item h => hitems item (List.mem_cons_of_mem _ h)
      cases v with
      | none => exact ih hrest (List.mem_append_left _ hitem) hitem
      | some value =>
        rcases List.mem_cons.mp hitem with rfl | hitem
        · exact hitems (pid, some value) List.mem_cons_self value rfl
        · exact ih hrest (List.mem_append_left _ hitem) hitem
  · unfold up at hitem
    split at hitem
    · cases hitem
    · next hne =>
      rw [List.mem_singleton] at hitem
      subst hitem
      refine hd .userProperty _ ?_
      unfold upTuple at hne ⊢
      split
      · next l hget => exact hget
      · next hnone =>
        exfalso
        split at hne
        · next l hget => exact hnone l hget
        · exact hne rfl

theorem length_recordDict (items : List (PropertyID × Option PropVal)) (l : UserProperties) :
    (recordDict items l).length ≤ items.length + 1 := by
  have hitems : (propItems items).length ≤ items.length := by
    have hkeys := (keys_propItems_sublist items).length_le
    simpa [Dict.keys] using hkeys
  have hup : (up l).length ≤ 1 := by
    unfold up
    split <;> simp
  unfold recordDict
  rw [List.length_append]
  omega

end FieldFits

/-- The properties of a record, when the record is made from properties that can be encoded, can
    be encoded as well; there are at most seventeen. -/
structure PropCodec.Reencodes {α : Type} (c : PropCodec α) : Prop where
  fits : ∀ d, (∀ pid, FieldFits pid (Dict.get? d pid)) →
    ∀ item ∈ c.toDict (c.ofDict d), Fits (encodeProp item.1 item.2) maxProperty
  short : ∀ r, (c.toDict r).length ≤ 17

section Records

theorem reencodes_connect : connectCodec.Reencodes where
  fits d hd := fits_recordDict
    (by simp (disch := first | exact hd _ | decide) [ConnectProperties.items, connectCodec]) hd
  short r := (length_recordDict _ _).trans (by simp [ConnectProperties.items])

theorem reencodes_will : willCodec.Reencodes where
  fits d hd := fits_recordDict (by simp [WillProperties.items, willCodec, hd]) hd
  short r := (length_recordDict _ _).trans (by simp [WillProperties.items])

theorem reencodes_connack : connackCodec.Reencodes where
  fits d hd := fits_recordDict
    (by simp (disch := first | exact hd _ | decide) [ConnAckProperties.items, connackCodec]) hd
  short r := (length_recordDict _ _).trans (by simp [ConnAckProperties.items])

theorem reencodes_publish : publishCodec.Reencodes where
  fits d hd := fits_recordDict (by simp [PublishProperties.items, publishCodec, hd]) hd
  short r := (length_recordDict _ _).trans (by simp [PublishProperties.items])

theorem reencodes_puback : pubackCodec.Reencodes where
  fits d hd := fits_recordDict (by simp [PubAckProperties.items, pubackCodec, hd]) hd
  short r := (length_recordDict _ _).trans (by simp [PubAckProperties.items])

theorem reencodes_subscribe : subscribeCodec.Reencodes where
  fits d hd := fits_recordDict (by simp [SubscribeProperties.items, subscribeCodec, hd]) hd
  short r := (length_recordDict _ _).trans (by simp [SubscribeProperties.items])

theorem reencodes_suback : subackCodec.Reencodes where
  fits d hd := fits_recordDict (by simp [SubAckProperties.items, subackCodec, hd]) hd
  short r := (length_recordDict _ _).trans (by simp [SubAckProperties.items])

theorem reencodes_unsubscribe : unsubscribeCodec.Reencodes where
  fits d hd := fits_recordDict (by simp [UnsubscribeProperties.items]) hd
  short r := (length_recordDict _ _).trans (by simp [UnsubscribeProperties.items])

theorem reencodes_unsuback : unsubackCodec.Reencodes where
  fits d hd := fits_recordDict (by simp [UnsubAckProperties.items, unsubackCodec, hd]) hd
  short r := (length_recordDict _ _).trans (by simp [UnsubAckProperties.items])

theorem reencodes_disconnect : disconnectCodec.Reencodes where
  fits d hd := fits_recordDict (by simp [DisconnectProperties.items, disconnectCodec, hd]) hd
  short r := (length_recordDict _ _).trans (by simp [DisconnectProperties.items])

theorem reencodes_auth : authCodec.Reencodes where
  fits d hd := fits_recordDict (by simp [AuthProperties.items, authCodec, hd]) hd
  short r := (length_recordDict _ _).trans (by simp [AuthProperties.items])

end Records

/-- The bytes of the longest property block that `encode` writes again. -/
def maxBlock : Nat := 1200000

theorem fits_encodeProps {d : PropDict} (h : ∀ item ∈ d, Fits (encodeProp item.1 item.2) maxProperty) :
    Fits (encodeProps d) (d.length * maxProperty) := by
  induction d with
  | nil => exact fits_ok (Nat.zero_le _)
  | cons item d ih =>
    obtain ⟨pid, value⟩ := item
    have hrest := ih fun item hi => h item (List.mem_cons_of_mem _ hi)
    rw [List.length_cons, Nat.succ_mul, Nat.add_comm]
    exact (h (pid, value) List.mem_cons_self).append hrest

theorem fits_encodePropsBlock {d : PropDict}
    (h : ∀ item ∈ d, Fits (encodeProp item.1 item.2) maxProperty) (hlen : d.length ≤ 17) :
    Fits (encodePropsBlock d) maxBlock := by
  have hraw := (fits_encodeProps h).mono (Nat.mul_le_mul_right maxProperty hlen)
  unfold maxProperty at hraw
  unfold encodePropsBlock maxBlock
  split
  · exact (fits_encodeVarint (Nat.zero_le _)).mono (by omega)
  · refine hraw.bind fun raw hraw => ?_
    refine (fits_encodeVarint (by unfold maxMqttVarint; omega)).bind fun len hlen => fits_ok ?_
    rw [List.length_append]
    omega

section Records

variable {α : Type} {c : PropCodec α} {buf : Bytes} {pos n : Nat} {props : Option α}

/-- The record that a block decodes to can be encoded. -/
theorem fits_encodeProperties (hc : c.Reencodes) (hlen : buf.length ≤ 65535)
    (h : decodeProperties c buf pos = .ok (props, n)) : Fits (encodeProperties c props) maxBlock := by
  obtain ⟨⟨d, k⟩, hblock, h⟩ := bind_eq_ok.mp h
  have hfields : ∀ pid, FieldFits pid (Dict.get? d pid) := by
    intro pid value hget
    refine (encodable_decodePropsBlock hblock pid value hget).mono ?_
    unfold maxProperty
    split <;> omega
  have hnone : Fits (encodeVarint 0) maxBlock :=
    (fits_encodeVarint (Nat.zero_le _)).mono (by unfold maxBlock; omega)
  dsimp only at h
  split at h
  · cases h
    exact hnone
  · cases h
    exact fits_encodePropsBlock (hc.fits d hfields) (hc.short _)

/-- The same for a block that is read under a condition. -/
theorem fits_readIf {cond : Prop} [Decidable cond] (hc : c.Reencodes) (hlen : buf.length ≤ 65535)
    (h : readIf cond (decodeProperties c buf pos) = .ok (props, n)) :
    Fits (encodeProperties c props) maxBlock := by
  unfold readIf at h
  split at h
  · exact fits_encodeProperties hc hlen h
  · cases h
    exact (fits_encodeVarint (Nat.zero_le _)).mono (by unfold maxBlock; omega)

/-- And for a block that is written under one. -/
theorem fits_writeIf {cond cond' : Prop} [Decidable cond] [Decidable cond'] (hc : c.Reencodes)
    (hlen : buf.length ≤ 65535) (h : readIf cond (decodeProperties c buf pos) = .ok (props, n)) :
    Fits (writeIf cond' (encodeProperties c props)) maxBlock := by
  unfold writeIf
  split
  · exact fits_readIf hc hlen h
  · exact fits_ok (Nat.zero_le _)

end Records

/-! ## Packets -/

/-- The will with a property record that has no property read as `None`. -/
def Will.withoutEmpty (w : Will) : Will := { w with properties := normProps willCodec w.properties }

/-- The packet with every property record that has no property read as `None`. -/
def Packet.withoutEmpty : Packet → Packet
  | .connect p => .connect { p with
      will := p.will.map Will.withoutEmpty
      properties := normProps connectCodec p.properties }
  | .connack p => .connack { p with properties := normProps connackCodec p.properties }
  | .publish p => .publish { p with properties := normProps publishCodec p.properties }
  | .puback p => .puback { p with properties := normProps pubackCodec p.properties }
  | .pubrec p => .pubrec { p with properties := normProps pubackCodec p.properties }
  | .pubrel p => .pubrel { p with properties := normProps pubackCodec p.properties }
  | .pubcomp p => .pubcomp { p with properties := normProps pubackCodec p.properties }
  | .subscribe p => .subscribe { p with properties := normProps subscribeCodec p.properties }
  | .suback p => .suback { p with properties := normProps subackCodec p.properties }
  | .unsubscribe p => .unsubscribe { p with properties := normProps unsubscribeCodec p.properties }
  | .unsuback p => .unsuback { p with properties := normProps unsubackCodec p.properties }
  | .pingreq => .pingreq
  | .pingresp => .pingresp
  | .disconnect p => .disconnect { p with properties := normProps disconnectCodec p.properties }
  | .auth p => .auth { p with properties := normProps authCodec p.properties }

/-- The bytes of the longest packet that `encode` writes again. -/
def maxPacket : Nat := 3000000

theorem fits_buildPacket {packetType : PacketType} {flags : Nat} {body : Bytes}
    (h : body.length + 5 ≤ maxPacket) : Fits (buildPacket packetType flags body) maxPacket := by
  unfold maxPacket at h
  unfold buildPacket
  refine (fits_encodeVarint (by unfold maxMqttVarint; omega)).bind fun len hlen => fits_ok ?_
  rw [List.length_cons, List.length_append]
  unfold maxPacket
  omega

theorem fits_packetIdOnly {packetType : PacketType} {flags : Nat} {packetId : Int}
    (h : 0 ≤ packetId ∧ packetId ≤ 65535) : Fits (packetIdOnly packetType flags packetId) maxPacket := by
  unfold packetIdOnly
  exact (fits_packH h).bind fun body hbody => fits_buildPacket (by unfold maxPacket; omega)

section Reencode

variable {body : Bytes} {version : Version}

theorem fits_bytesOf_byte (b : UInt8) : Fits (bytesOf [b.toNat]) 1 := by
  refine fits_bytesOf fun n hn => ?_
  rw [List.mem_singleton] at hn
  subst hn
  exact byte_range b

theorem normProps_none {α : Type} [DecidableEq α] (c : PropCodec α) : normProps c none = none := rfl

/-- Properties that were read in MQTT 5 only lose nothing when they are written. -/
theorem normProperties_readIf {α : Type} [DecidableEq α] {c : PropCodec α} {cond : Prop}
    [Decidable cond] {part : Except PyError (Option α × Nat)} {props : Option α} {n : Nat}
    (hcond : cond → version = .v5) (h : readIf cond part = .ok (props, n)) :
    normProperties c version props = normProps c props := by
  unfold normProperties
  split
  · rfl
  · next hv =>
    rw [readIf_neg fun hc => hv (hcond hc)] at h
    cases h
    rfl

theorem reencode_connack {p : ConnAck} (hlen : body.length ≤ 65535)
    (h : decodeConnack body version = .ok p) :
    Fits (encodeConnack p version) maxPacket ∧
      p.norm version = { p with properties := normProps connackCodec p.properties } := by
  unfold decodeConnack at h
  split at h
  · cases h
  obtain ⟨sp, -, h⟩ := bind_eq_ok.mp h
  obtain ⟨rc, -, h⟩ := bind_eq_ok.mp h
  obtain ⟨⟨props, n⟩, hprops, h⟩ := bind_eq_ok.mp h
  cases h
  constructor
  · unfold encodeConnack
    refine (@fits_bytesOf [_, _] ?_).bind fun head hhead =>
      (fits_writeIf reencodes_connack hlen hprops).bind fun bs hbs => fits_buildPacket ?_
    · intro n hn
      simp only [List.mem_cons, List.not_mem_nil, or_false] at hn
      rcases hn with rfl | rfl
      · split <;> omega
      · exact byte_range rc
    · simp only [List.length_cons, List.length_nil] at hhead
      unfold maxBlock at hbs
      rw [List.length_append]
      unfold maxPacket
      omega
  · unfold ConnAck.norm
    rw [normProperties_readIf (fun hc => hc.1) hprops]

theorem decodePublishId_range {pos n : Nat} {packetId : Option Int}
    (h : decodePublishId body pos = .ok (packetId, n)) :
    ∃ pid : Int, packetId = some pid ∧ 0 ≤ pid ∧ pid ≤ 65535 := by
  unfold decodePublishId at h
  split at h
  · cases h
  · obtain ⟨pid, hpid, h⟩ := bind_eq_ok.mp h
    cases h
    exact ⟨pid, rfl, unpackH_range hpid⟩

theorem reencode_publish {p : Publish} {flags : Nat} (hlen : body.length ≤ 65535)
    (h : decodePublish body flags version = .ok p) :
    Fits (encodePublish p version) maxPacket ∧
      p.norm version = { p with properties := normProps publishCodec p.properties } := by
  unfold decodePublish at h
  obtain ⟨qos, -, h⟩ := bind_eq_ok.mp h
  obtain ⟨⟨topic, n⟩, htopic, h⟩ := bind_eq_ok.mp h
  obtain ⟨⟨packetId, m⟩, hpid, h⟩ := bind_eq_ok.mp h
  obtain ⟨⟨props, k⟩, hprops, h⟩ := bind_eq_ok.mp h
  cases h
  constructor
  · have hid : ∀ payload retain dup,
        Fits (encodePublishId ⟨topic, payload, qos, retain, dup, packetId, props⟩) 2 := by
      intro payload retain dup
      unfold encodePublishId
      dsimp only
      split
      · next hqos =>
        rw [readIf_pos hqos] at hpid
        obtain ⟨pid, rfl, hrange⟩ := decodePublishId_range hpid
        exact fits_packH hrange
      · exact fits_ok (Nat.zero_le _)
    have htopicLen := isLocal_decodeStr.inside htopic
    unfold encodePublish
    refine (fits_encodeStr htopic).bind fun topicBytes ht => (hid _ _ _).bind fun pidBytes hp =>
      (fits_writeIf reencodes_publish hlen hprops).bind fun bs hbs => fits_buildPacket ?_
    unfold maxBlock at hbs
    simp only [List.length_append, List.length_drop]
    unfold maxPacket
    omega
  · unfold Publish.norm
    rw [normProperties_readIf id hprops]
    dsimp only
    split
    · next hqos =>
      rw [readIf_neg (not_not.2 hqos)] at hpid
      cases hpid
      rfl
    · rfl

theorem reencode_pubAckVariant {p : PubAck} {packetType : PacketType} {flags : Nat}
    (hlen : body.length ≤ 65535) (h : decodePubAckVariant body version = .ok p) :
    Fits (encodePubAckVariant packetType flags p version) maxPacket ∧
      p.norm version = { p with properties := normProps pubackCodec p.properties } := by
  unfold decodePubAckVariant at h
  split at h
  · cases h
  obtain ⟨packetId, hpid, h⟩ := bind_eq_ok.mp h
  have hrange := unpackH_range hpid
  split at h
  · next hv5 =>
    obtain ⟨rc, -, h⟩ := bind_eq_ok.mp h
    obtain ⟨⟨props, n⟩, hprops, h⟩ := bind_eq_ok.mp h
    cases h
    constructor
    · unfold encodePubAckVariant
      split
      · refine (fits_packH hrange).bind fun pid hpid => (fits_packB (byte_range rc)).bind fun code hcode =>
          (fits_readIf reencodes_puback hlen hprops).bind fun bs hbs => fits_buildPacket ?_
        unfold maxBlock at hbs
        simp only [List.length_append]
        unfold maxPacket
        omega
      · exact fits_packetIdOnly hrange
    · unfold PubAck.norm normProperties
      simp only [hv5.1, if_true]
  · next hshort =>
    cases h
    constructor
    · unfold encodePubAckVariant
      rw [if_neg (by simp)]
      exact fits_packetIdOnly hrange
    · unfold PubAck.norm normProperties
      simp only [normProps_none, ite_self]

/-- The subscriptions that are read take as many bytes when they are written, and no option is
    lost. -/
theorem reencode_subscriptions {pos : Nat} {subs : List SubscriptionRequest}
    (h : decodeSubscriptions body version pos = .ok subs) :
    Fits (encodeSubscriptions version subs) (body.length - pos) ∧
      subs.map (SubscriptionRequest.norm version) = subs := by
  induction hk : body.length - pos using Nat.strong_induction_on generalizing pos subs with
  | _ k ih =>
    rw [decodeSubscriptions] at h
    split at h
    · obtain ⟨⟨filter, n⟩, hfilter, h⟩ := bind_eq_ok.mp h
      dsimp only at h
      split at h
      · cases h
      next hoptions =>
      obtain ⟨options, -, h⟩ := bind_eq_ok.mp h
      obtain ⟨sub, hsub, h⟩ := bind_eq_ok.mp h
      obtain ⟨rest, hrest, h⟩ := bind_eq_ok.mp h
      cases h
      obtain ⟨hfits, hnorm⟩ := ih (body.length - (pos + n + 1)) (by omega) hrest rfl
      have hread : sub.topicFilter = filter ∧ sub.norm version = sub := by
        unfold subscriptionOf at hsub
        unfold SubscriptionRequest.norm
        obtain ⟨qos, -, hsub⟩ := bind_eq_ok.mp hsub
        split at hsub
        · next hv5 =>
          obtain ⟨rh, -, hsub⟩ := bind_eq_ok.mp hsub
          cases hsub
          exact ⟨rfl, if_pos hv5⟩
        · next hv =>
          cases hsub
          exact ⟨rfl, if_neg hv⟩
      constructor
      · rw [encodeSubscriptions, hread.1]
        refine (fits_encodeStr hfilter).bind fun bs hbs => hfits.bind fun more hmore => fits_ok ?_
        rw [List.length_append, List.length_cons]
        omega
      · rw [List.map_cons, hread.2, hnorm]
    · cases h
      exact ⟨fits_ok (Nat.zero_le _), rfl⟩

theorem reencode_subscribe {p : Subscribe} (hlen : body.length ≤ 65535)
    (h : decodeSubscribe body version = .ok p) :
    Fits (encodeSubscribe p version) maxPacket ∧
      p.norm version = { p with properties := normProps subscribeCodec p.properties } := by
  unfold decodeSubscribe at h
  split at h
  · cases h
  obtain ⟨packetId, hpid, h⟩ := bind_eq_ok.mp h
  obtain ⟨⟨props, n⟩, hprops, h⟩ := bind_eq_ok.mp h
  obtain ⟨subs, hsubs, h⟩ := bind_eq_ok.mp h
  cases h
  obtain ⟨hfits, hnorm⟩ := reencode_subscriptions hsubs
  constructor
  · unfold encodeSubscribe
    refine (fits_packH (unpackH_range hpid)).bind fun pid hp =>
      (fits_writeIf reencodes_subscribe hlen hprops).bind fun bs hbs =>
      hfits.bind fun subBytes hs => fits_buildPacket ?_
    unfold maxBlock at hbs
    simp only [List.length_append]
    unfold maxPacket
    omega
  · unfold Subscribe.norm
    rw [normProperties_readIf id hprops, hnorm]

theorem bytesOf_codesFrom (pos : Nat) : Fits (bytesOf (codesFrom body pos)) body.length := by
  refine (fits_bytesOf ?_).mono ?_
  · intro n hn
    unfold codesFrom at hn
    obtain ⟨b, -, rfl⟩ := List.mem_map.mp hn
    exact byte_range b
  · unfold codesFrom
    rw [List.length_map, List.length_drop]
    omega

theorem reencode_suback {p : SubAck} (hlen : body.length ≤ 65535)
    (h : decodeSuback body version = .ok p) :
    Fits (encodeSuback p version) maxPacket ∧
      p.norm version = { p with properties := normProps subackCodec p.properties } := by
  unfold decodeSuback at h
  split at h
  · cases h
  obtain ⟨packetId, hpid, h⟩ := bind_eq_ok.mp h
  obtain ⟨⟨props, n⟩, hprops, h⟩ := bind_eq_ok.mp h
  cases h
  constructor
  · unfold encodeSuback
    refine (fits_packH (unpackH_range hpid)).bind fun pid hp =>
      (fits_writeIf reencodes_suback hlen hprops).bind fun bs hbs =>
      (bytesOf_codesFrom _).bind fun codes hcodes => fits_buildPacket ?_
    unfold maxBlock at hbs
    simp only [List.length_append]
    unfold maxPacket
    omega
  · unfold SubAck.norm
    rw [normProperties_readIf id hprops]

theorem fits_encodeTopicFilters {pos : Nat} {topics : List String}
    (h : decodeTopicFilters body pos = .ok topics) :
    Fits (encodeTopicFilters topics) (body.length - pos) := by
  induction hk : body.length - pos using Nat.strong_induction_on generalizing pos topics with
  | _ k ih =>
    rw [decodeTopicFilters] at h
    split at h
    · split at h
      · cases h
      · next filter n hfilter =>
        obtain ⟨rest, hrest, h⟩ := bind_eq_ok.mp h
        cases h
        have htwo := two_le_of_decodeStr hfilter
        have hinside := isLocal_decodeStr.inside hfilter
        have hfits := ih (body.length - (pos + n)) (by omega) hrest rfl
        rw [encodeTopicFilters]
        exact ((fits_encodeStr hfilter).append hfits).mono (by omega)
    · cases h
      exact fits_ok (Nat.zero_le _)

theorem reencode_unsubscribe {p : Unsubscribe} (hlen : body.length ≤ 65535)
    (h : decodeUnsubscribe body version = .ok p) :
    Fits (encodeUnsubscribe p version) maxPacket ∧
      p.norm version = { p with properties := normProps unsubscribeCodec p.properties } := by
  unfold decodeUnsubscribe at h
  split at h
  · cases h
  obtain ⟨packetId, hpid, h⟩ := bind_eq_ok.mp h
  obtain ⟨⟨props, n⟩, hprops, h⟩ := bind_eq_ok.mp h
  obtain ⟨topics, htopics, h⟩ := bind_eq_ok.mp h
  cases h
  constructor
  · unfold encodeUnsubscribe
    refine (fits_packH (unpackH_range hpid)).bind fun pid hp =>
      (fits_writeIf reencodes_unsubscribe hlen hprops).bind fun bs hbs =>
      (fits_encodeTopicFilters htopics).bind fun filters hf => fits_buildPacket ?_
    unfold maxBlock at hbs
    simp only [List.length_append]
    unfold maxPacket
    omega
  · unfold Unsubscribe.norm
    rw [normProperties_readIf id hprops]

theorem reencode_unsuback {p : UnsubAck} (hlen : body.length ≤ 65535)
    (h : decodeUnsuback body version = .ok p) :
    Fits (encodeUnsuback p version) maxPacket ∧
      p.norm version = { p with properties := normProps unsubackCodec p.properties } := by
  unfold decodeUnsuback at h
  split at h
  · cases h
  obtain ⟨packetId, hpid, h⟩ := bind_eq_ok.mp h
  have hrange := unpackH_range hpid
  unfold encodeUnsuback UnsubAck.norm normProperties
  split at h
  · next hv5 =>
    obtain ⟨⟨props, n⟩, hprops, h⟩ := bind_eq_ok.mp h
    cases h
    rw [if_pos hv5, if_pos hv5, if_pos hv5]
    refine ⟨?_, rfl⟩
    refine (fits_packH hrange).bind fun pid hp =>
      (fits_encodeProperties reencodes_unsuback hlen hprops).bind fun bs hbs =>
      (bytesOf_codesFrom _).bind fun codes hcodes => fits_buildPacket ?_
    unfold maxBlock at hbs
    simp only [List.length_append]
    unfold maxPacket
    omega
  · next hv =>
    cases h
    rw [if_neg hv, if_neg hv, if_neg hv]
    exact ⟨fits_packetIdOnly hrange, rfl⟩

theorem reencode_disconnect {p : Disconnect} (hlen : body.length ≤ 65535)
    (h : decodeDisconnect body version = .ok p) :
    Fits (encodeDisconnect p version) maxPacket ∧
      p.norm version = { p with properties := normProps disconnectCodec p.properties } := by
  have hempty : Fits (buildPacket .disconnect 0 []) maxPacket :=
    fits_buildPacket (by unfold maxPacket; simp)
  unfold decodeDisconnect at h
  unfold encodeDisconnect Disconnect.norm normProperties
  split at h
  · next hv5 =>
    obtain ⟨rc, -, h⟩ := bind_eq_ok.mp h
    obtain ⟨⟨props, n⟩, hprops, h⟩ := bind_eq_ok.mp h
    cases h
    constructor
    · split
      · refine (fits_bytesOf_byte rc).bind fun code hcode =>
          (fits_readIf reencodes_disconnect hlen hprops).bind fun bs hbs => fits_buildPacket ?_
        unfold maxBlock at hbs
        simp only [List.length_append]
        unfold maxPacket
        omega
      · exact hempty
    · simp only [hv5.1, if_true]
  · cases h
    constructor
    · rw [if_neg (by simp)]
      exact hempty
    · simp only [normProps_none, ite_self]

theorem reencode_auth {p : Auth} (hlen : body.length ≤ 65535) (h : decodeAuth body = .ok p) :
    Fits (encodeAuth p) maxPacket := by
  unfold decodeAuth at h
  split at h
  · cases h
  obtain ⟨rc, -, h⟩ := bind_eq_ok.mp h
  obtain ⟨⟨props, n⟩, hprops, h⟩ := bind_eq_ok.mp h
  cases h
  unfold encodeAuth
  refine (fits_bytesOf_byte rc).bind fun code hcode =>
    (fits_readIf reencodes_auth hlen hprops).bind fun bs hbs => fits_buildPacket ?_
  unfold maxBlock at hbs
  simp only [List.length_append]
  unfold maxPacket
  omega

/-! ### CONNECT -/

/-- The version that the protocol level of a CONNECT body stands for; the protocol name takes the
    first six bytes. -/
def connectVersion (body : Bytes) : Version := if body[6]? = some 0x05 then .v5 else .v311

theorem reencode_will {pos flags n : Nat} {willQos : QoS} {w : Will} (hlen : body.length ≤ 65535)
    (h : decodeWill body pos flags version willQos = .ok (w, n)) :
    Fits (encodeWill version w) (maxBlock + 131074) ∧ w.norm version = w.withoutEmpty := by
  unfold decodeWill at h
  obtain ⟨⟨props, k⟩, hprops, h⟩ := bind_eq_ok.mp h
  obtain ⟨⟨topic, n₁⟩, htopic, h⟩ := bind_eq_ok.mp h
  obtain ⟨⟨payload, n₂⟩, hpayload, h⟩ := bind_eq_ok.mp h
  cases h
  have htopicLen := decodeStr_size htopic
  have hpayloadLen := decodeBytesField_size hpayload
  constructor
  · unfold encodeWill
    refine (fits_writeIf reencodes_will hlen hprops).bind fun bs hbs =>
      (fits_encodeStr htopic).bind fun topicBytes ht =>
      (fits_encodeBytesField hpayload).bind fun payloadBytes hp => fits_ok ?_
    simp only [List.length_append]
    omega
  · unfold Will.norm Will.withoutEmpty
    rw [normProperties_readIf id hprops]

/-- A part that is read under a flag, and written when it is there. -/
theorem fits_writeSome {α : Type} {cond : Prop} [Decidable cond] {part : Except PyError (α × Nat)}
    {write : α → Except PyError Bytes} {o : Option α} {n m : Nat}
    (h : readIf cond (some? part) = .ok (o, n)) (hwrite : ∀ a k, part = .ok (a, k) → Fits (write a) m) :
    Fits (writeSome write o) m := by
  cases o with
  | none => exact fits_ok (Nat.zero_le _)
  | some a =>
    unfold readIf at h
    split at h
    · obtain ⟨⟨a', k⟩, hpart, h⟩ := bind_eq_ok.mp h
      cases h
      exact hwrite _ _ hpart
    · cases h

theorem reencode_connect {p : Connect} (hlen : body.length ≤ 65535) (h : decodeConnect body = .ok p) :
    Fits (encodeConnect p (connectVersion body)) maxPacket ∧
      p.norm (connectVersion body) = { p with
        will := p.will.map Will.withoutEmpty
        properties := normProps connectCodec p.properties } := by
  unfold decodeConnect at h
  obtain ⟨⟨name, pos⟩, hname, h⟩ := bind_eq_ok.mp h
  dsimp only at h
  split at h
  · cases h
  next hmqtt =>
  obtain rfl := not_not.1 hmqtt
  obtain ⟨level, hlevel, h⟩ := bind_eq_ok.mp h
  split at h
  · cases h
  obtain ⟨flags, -, h⟩ := bind_eq_ok.mp h
  obtain ⟨willQos, -, h⟩ := bind_eq_ok.mp h
  obtain ⟨keepalive, hkeepalive, h⟩ := bind_eq_ok.mp h
  have hversion : (if level = 0x05 then Version.v5 else .v311) = connectVersion body := by
    have hpos : pos = 6 := (decodeStr_size hname).1
    subst hpos
    unfold connectVersion
    rw [byteAt_eq_ok.1 hlevel]
    simp only [Option.some.injEq]
  rw [hversion] at h
  generalize connectVersion body = version at h ⊢
  obtain ⟨⟨props, n⟩, hprops, h⟩ := bind_eq_ok.mp h
  obtain ⟨⟨clientId, n₁⟩, hclient, h⟩ := bind_eq_ok.mp h
  obtain ⟨⟨will, n₂⟩, hwill, h⟩ := bind_eq_ok.mp h
  obtain ⟨⟨username, n₃⟩, husername, h⟩ := bind_eq_ok.mp h
  obtain ⟨⟨password, n₄⟩, hpassword, h⟩ := bind_eq_ok.mp h
  cases h
  constructor
  · have hmqttName : Fits (encodeStr "MQTT") 6 := fits_ok (by decide)
    have hclientLen := decodeStr_size hclient
    have husernameFits : Fits (writeSome encodeStr username) 65537 := by
      refine fits_writeSome husername fun s k hs => (fits_encodeStr hs).mono ?_
      have hsize := decodeStr_size hs
      omega
    have hpasswordFits : Fits (writeSome encodeBytesField password) 65537 := by
      refine fits_writeSome hpassword fun s k hs => (fits_encodeBytesField hs).mono ?_
      have hsize := decodeBytesField_size hs
      omega
    unfold encodeConnect
    refine hmqttName.bind fun nameBytes hname =>
      (fits_packH (unpackH_range hkeepalive)).bind fun keepaliveBytes hk =>
      (fits_writeIf reencodes_connect hlen hprops).bind fun bs hbs =>
      (fits_encodeStr hclient).bind fun clientBytes hc =>
      (fits_writeSome hwill fun w k hw => (reencode_will hlen hw).1).bind fun willBytes hw =>
      husernameFits.bind fun userBytes hu =>
      hpasswordFits.bind fun passBytes hp => fits_buildPacket ?_
    unfold maxBlock at hbs hw
    simp only [List.length_append, List.length_cons, List.length_nil]
    unfold maxPacket
    omega
  · unfold Connect.norm
    rw [normProperties_readIf id hprops]
    cases will with
    | none => rfl
    | some w =>
      unfold readIf at hwill
      split at hwill
      · obtain ⟨⟨w', k⟩, hw, hwill⟩ := bind_eq_ok.mp hwill
        cases hwill
        simp only [Option.map_some, (reencode_will hlen hw).2]
      · cases hwill

end Reencode

/-! ## The round trip -/

/-- The body of the packet at the start of a buffer. -/
def bodyOf (b : Bytes) : Bytes :=
  match remainingLengthLoop b 4 0 1 0 with
  | .ok (some (remaining, k)) => (b.drop (1 + k)).take remaining
  | _ => []

/-- The version in which a decoded packet is encoded again: CONNECT carries its own. -/
def wireVersion (version : Version) (body : Bytes) : Packet → Version
  | .connect _ => connectVersion body
  | _ => version

/-- The packet can be encoded, and is in normal form but for empty property records. -/
def Writable (version : Version) (body : Bytes) (p : Packet) : Prop :=
  Fits (encode p (wireVersion version body p)) maxPacket ∧
    p.norm (wireVersion version body p) = p.withoutEmpty

theorem writable_bind {α : Type} {version : Version} {body : Bytes} {read : Except PyError α}
    {f : α → Packet} {p : Packet} (h : (read >>= fun a => .ok (f a)) = .ok p)
    (hread : ∀ a, read = .ok a → Writable version body (f a)) : Writable version body p := by
  obtain ⟨a, ha, h⟩ := bind_eq_ok.mp h
  cases h
  exact hread a ha

/-- Whatever the decoder of a body accepts can be written. -/
theorem writable_decodeBody {packetType : PacketType} {flags : Nat} {body : Bytes} {version : Version}
    {p : Packet} (hlen : body.length ≤ 65535) (h : decodeBody packetType flags body version = .ok p) :
    Writable version body p := by
  have hping : ∀ packetType, Fits (buildPacket packetType 0 []) maxPacket :=
    fun packetType => fits_buildPacket (by unfold maxPacket; simp)
  cases packetType with
  | pingreq =>
    cases h
    exact ⟨hping .pingreq, rfl⟩
  | pingresp =>
    cases h
    exact ⟨hping .pingresp, rfl⟩
  | connect =>
    refine writable_bind h fun p hp => ?_
    obtain ⟨hfits, hnorm⟩ := reencode_connect hlen hp
    exact ⟨hfits, congrArg Packet.connect hnorm⟩
  | connack =>
    refine writable_bind h fun p hp => ?_
    obtain ⟨hfits, hnorm⟩ := reencode_connack hlen hp
    exact ⟨hfits, congrArg Packet.connack hnorm⟩
  | publish =>
    refine writable_bind h fun p hp => ?_
    obtain ⟨hfits, hnorm⟩ := reencode_publish hlen hp
    exact ⟨hfits, congrArg Packet.publish hnorm⟩
  | puback =>
    refine writable_bind h fun p hp => ?_
    obtain ⟨hfits, hnorm⟩ := reencode_pubAckVariant hlen hp
    exact ⟨hfits, congrArg Packet.puback hnorm⟩
  | pubrec =>
    refine writable_bind h fun p hp => ?_
    obtain ⟨hfits, hnorm⟩ := reencode_pubAckVariant hlen hp
    exact ⟨hfits, congrArg Packet.pubrec hnorm⟩
  | pubrel =>
    refine writable_bind h fun p hp => ?_
    obtain ⟨hfits, hnorm⟩ := reencode_pubAckVariant hlen hp
    exact ⟨hfits, congrArg Packet.pubrel hnorm⟩
  | pubcomp =>
    refine writable_bind h fun p hp => ?_
    obtain ⟨hfits, hnorm⟩ := reencode_pubAckVariant hlen hp
    exact ⟨hfits, congrArg Packet.pubcomp hnorm⟩
  | subscribe =>
    refine writable_bind h fun p hp => ?_
    obtain ⟨hfits, hnorm⟩ := reencode_subscribe hlen hp
    exact ⟨hfits, congrArg Packet.subscribe hnorm⟩
  | suback =>
    refine writable_bind h fun p hp => ?_
    obtain ⟨hfits, hnorm⟩ := reencode_suback hlen hp
    exact ⟨hfits, congrArg Packet.suback hnorm⟩
  | unsubscribe =>
    refine writable_bind h fun p hp => ?_
    obtain ⟨hfits, hnorm⟩ := reencode_unsubscribe hlen hp
    exact ⟨hfits, congrArg Packet.unsubscribe hnorm⟩
  | unsuback =>
    refine writable_bind h fun p hp => ?_
    obtain ⟨hfits, hnorm⟩ := reencode_unsuback hlen hp
    exact ⟨hfits, congrArg Packet.unsuback hnorm⟩
  | disconnect =>
    refine writable_bind h fun p hp => ?_
    obtain ⟨hfits, hnorm⟩ := reencode_disconnect hlen hp
    exact ⟨hfits, congrArg Packet.disconnect hnorm⟩
  | auth => exact writable_bind h fun p hp => ⟨reencode_auth hlen hp, rfl⟩

/-- A decoded packet comes from its body, which its fixed header precedes. -/
theorem decode_eq_body {b : Bytes} {version : Version} {p : Packet} {n : Nat}
    (h : decode b version = .ok (some (p, n))) :
    (bodyOf b).length + 2 ≤ n ∧
      ∃ packetType flags, decodeBody packetType flags (bodyOf b) version = .ok p := by
  rw [decode] at h
  split at h
  · cases h
  obtain ⟨first, -, h⟩ := bind_eq_ok.mp h
  obtain ⟨r, hloop, h⟩ := bind_eq_ok.mp h
  rcases r with _ | ⟨remaining, k⟩
  · cases h
  dsimp only at h
  split at h
  · cases h
  next htotal =>
  split at h
  · cases h
  next packetType htype =>
  obtain ⟨packet, hbody, h⟩ := bind_eq_ok.mp h
  cases h
  have hk := remainingLengthLoop_takes hloop
  have hbodyOf : bodyOf b = (b.drop (1 + k)).take remaining := by
    unfold bodyOf
    rw [hloop]
  rw [hbodyOf]
  refine ⟨?_, packetType, _, hbody⟩
  rw [List.length_take, List.length_drop]
  omega

/-- **Decoding is stable.** Every packet of up to 65536 bytes that the decoder accepts is one that
    the encoder writes, and reading that again gives the same packet, a property record without any
    property as `None`. -/
theorem decode_encode_decode {b : Bytes} {version : Version} {p : Packet} {n : Nat}
    (h : decode b version = .ok (some (p, n))) (hn : n ≤ 65536) :
    ∃ bs, encode p (wireVersion version (bodyOf b) p) = .ok bs ∧
      decode bs (wireVersion version (bodyOf b) p) = .ok (some (p.withoutEmpty, bs.length)) := by
  obtain ⟨hlen, packetType, flags, hbody⟩ := decode_eq_body h
  obtain ⟨⟨bs, hbs, -⟩, hnorm⟩ := writable_decodeBody (by omega) hbody
  obtain ⟨t, flags', body, hflags, hbuild, hagain⟩ := encode_eq_buildPacket hbs
  have hdecode := decode_buildPacket hbuild hflags [] (wireVersion version (bodyOf b) p)
  rw [List.append_nil, hagain, ok_bind, hnorm] at hdecode
  exact ⟨bs, hbs, hdecode⟩

/-- A CONNACK with a remaining length of two bytes, whose flag property has the value 2. -/
theorem decode_encode_decode_connack :
    ∃ bs, encode (.connack ⟨true, 0, some { retainAvailable := some true }⟩) .v5 = .ok bs ∧
      decode bs .v5 = .ok (some (.connack ⟨true, 0, some { retainAvailable := some true }⟩, bs.length)) :=
  @decode_encode_decode [0x20, 0x85, 0x00, 1, 0, 2, 0x25, 2] .v5
    (.connack ⟨true, 0, some { retainAvailable := some true }⟩) 8 (by decide +kernel) (by decide)

/-- A CONNACK whose only property belongs to PUBLISH has a record without any property, and none
    when it is read again. -/
theorem foreign_property_lost :
    decode [0x20, 5, 0, 0, 2, 0x01, 0] .v5 = .ok (some (.connack ⟨false, 0, some {}⟩, 7)) ∧
    encode (.connack ⟨false, 0, some {}⟩) .v5 = .ok [0x20, 3, 0, 0, 0] ∧
    decode [0x20, 3, 0, 0, 0] .v5 = .ok (some (.connack ⟨false, 0, none⟩, 5)) ∧
    ¬ ∀ (b : Bytes) (version : Version) (p : Packet) (n : Nat),
      decode b version = .ok (some (p, n)) → n ≤ 65536 →
      ∃ bs, encode p (wireVersion version (bodyOf b) p) = .ok bs ∧
        decode bs (wireVersion version (bodyOf b) p) = .ok (some (p, bs.length)) := by
  have hfirst : decode [0x20, 5, 0, 0, 2, 0x01, 0] .v5 =
      .ok (some (.connack ⟨false, 0, some {}⟩, 7)) := by decide +kernel
  have hencode : encode (.connack ⟨false, 0, some {}⟩) .v5 = .ok [0x20, 3, 0, 0, 0] := by
    decide +kernel
  have hsecond : decode [0x20, 3, 0, 0, 0] .v5 = .ok (some (.connack ⟨false, 0, none⟩, 5)) := by
    decide +kernel
  refine ⟨hfirst, hencode, hsecond, fun hall => ?_⟩
  obtain ⟨bs, hbs, hagain⟩ := hall _ _ _ _ hfirst (by decide)
  change encode (.connack ⟨false, 0, some {}⟩) .v5 = .ok bs at hbs
  change decode bs .v5 = .ok (some (.connack ⟨false, 0, some {}⟩, bs.length)) at hagain
  rw [hencode] at hbs
  cases hbs
  rw [hsecond] at hagain
  simp at hagain

end Zmqtt
