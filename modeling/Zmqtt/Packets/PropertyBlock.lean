/-
  MQTT 5 property blocks (`_internal/packets/properties.py`).

  A block is a varint length and a sequence of items, each a property id followed
  by a value in the wire type of that id. The source encodes a record through a
  dictionary from ids to values and decodes a block back into one. This module is
  the dictionary half: `encode_props`, `encode_props_block`, `decode_props_block`.

  `decodePropsBlock_of_drop`: a well-formed dictionary (`WfDict`: one well-typed
  value per id) written by `encode_props_block` is read back as it was, in order.
-/
import Zmqtt.Lib.Dict
import Zmqtt.Packets.Wire
import Zmqtt.Packets.Types

namespace Zmqtt

inductive PropertyID where
  | payloadFormatIndicator
  | messageExpiryInterval
  | contentType
  | responseTopic
  | correlationData
  | subscriptionIdentifier
  | sessionExpiryInterval
  | assignedClientIdentifier
  | serverKeepAlive
  | authenticationMethod
  | authenticationData
  | requestProblemInformation
  | willDelayInterval
  | requestResponseInformation
  | responseInformation
  | serverReference
  | reasonString
  | receiveMaximum
  | topicAliasMaximum
  | topicAlias
  | maximumQos
  | retainAvailable
  | userProperty
  | maximumPacketSize
  | wildcardSubscriptionAvailable
  | subscriptionIdentifierAvailable
  | sharedSubscriptionAvailable
  deriving Repr, DecidableEq

namespace PropertyID

/-- The `IntEnum` value. -/
def val : PropertyID → UInt8
  | payloadFormatIndicator => 0x01
  | messageExpiryInterval => 0x02
  | contentType => 0x03
  | responseTopic => 0x08
  | correlationData => 0x09
  | subscriptionIdentifier => 0x0B
  | sessionExpiryInterval => 0x11
  | assignedClientIdentifier => 0x12
  | serverKeepAlive => 0x13
  | authenticationMethod => 0x15
  | authenticationData => 0x16
  | requestProblemInformation => 0x17
  | willDelayInterval => 0x18
  | requestResponseInformation => 0x19
  | responseInformation => 0x1A
  | serverReference => 0x1C
  | reasonString => 0x1F
  | receiveMaximum => 0x21
  | topicAliasMaximum => 0x22
  | topicAlias => 0x23
  | maximumQos => 0x24
  | retainAvailable => 0x25
  | userProperty => 0x26
  | maximumPacketSize => 0x27
  | wildcardSubscriptionAvailable => 0x28
  | subscriptionIdentifierAvailable => 0x29
  | sharedSubscriptionAvailable => 0x2A

/-- All members, in declaration order. -/
def all : List PropertyID :=
  [payloadFormatIndicator, messageExpiryInterval, contentType, responseTopic, correlationData,
    subscriptionIdentifier, sessionExpiryInterval, assignedClientIdentifier, serverKeepAlive,
    authenticationMethod, authenticationData, requestProblemInformation, willDelayInterval,
    requestResponseInformation, responseInformation, serverReference, reasonString,
    receiveMaximum, topicAliasMaximum, topicAlias, maximumQos, retainAvailable, userProperty,
    maximumPacketSize, wildcardSubscriptionAvailable, subscriptionIdentifierAvailable,
    sharedSubscriptionAvailable]

/-- `PropertyID(b)`; `none` is the `ValueError` of the enumeration. -/
def ofVal? (b : UInt8) : Option PropertyID := all.find? fun pid => pid.val = b

theorem ofVal?_val (pid : PropertyID) : ofVal? pid.val = some pid := by
  cases pid <;> rfl

/-- The wire type of a property: the frozenset (`_WIRE_BYTE`, `_WIRE_UINT16`, ...) that
    holds its id. `pair` is `USER_PROPERTY`, handled separately by the source. -/
inductive WireType where
  | byte
  | uint16
  | uint32
  | varint
  | str
  | bytesData
  | pair
  deriving Repr, DecidableEq

def wireType : PropertyID → WireType
  | payloadFormatIndicator | requestProblemInformation | requestResponseInformation
  | maximumQos | retainAvailable | wildcardSubscriptionAvailable
  | subscriptionIdentifierAvailable | sharedSubscriptionAvailable => .byte
  | serverKeepAlive | receiveMaximum | topicAliasMaximum | topicAlias => .uint16
  | messageExpiryInterval | sessionExpiryInterval | willDelayInterval
  | maximumPacketSize => .uint32
  | subscriptionIdentifier => .varint
  | contentType | responseTopic | assignedClientIdentifier | authenticationMethod
  | reasonString | responseInformation | serverReference => .str
  | correlationData | authenticationData => .bytesData
  | userProperty => .pair

end PropertyID

open PropertyID (WireType)

/-- A value of the property dictionary. A Python `bool` is the integer 0 or 1. -/
inductive PropVal where
  | int (n : Int)
  | str (s : String)
  | bytes (b : Bytes)
  | pairs (l : UserProperties)
  deriving Repr, DecidableEq

def PropVal.ofBool (b : Bool) : PropVal := .int (if b then 1 else 0)

/-- `dict[PropertyID, Any]`. -/
abbrev PropDict := Dict PropertyID PropVal

/-! ## Encoding -/

/-- The `for k, v in value` loop of `encode_props` on `USER_PROPERTY`. -/
def encodePairs (pid : PropertyID) : UserProperties → Except PyError Bytes
  | [] => .ok []
  | (k, v) :: l => do
      let kb ← encodeStr k
      let vb ← encodeStr v
      let rest ← encodePairs pid l
      .ok (pid.val :: (kb ++ vb) ++ rest)

/-- One iteration of the loop of `encode_props`. A value that does not fit the wire type
    of its id raises; the records never produce one. -/
def encodeProp (pid : PropertyID) (value : PropVal) : Except PyError Bytes :=
  match pid.wireType, value with
  | .byte, .int n => do .ok (pid.val :: (← packB n))
  | .uint16, .int n => do .ok (pid.val :: (← packH n))
  | .uint32, .int n => do .ok (pid.val :: (← packI n))
  | .varint, .int n => do .ok (pid.val :: (← encodeVarint n))
  | .str, .str s => do .ok (pid.val :: (← encodeStr s))
  | .bytesData, .bytes b => do .ok (pid.val :: (← encodeBytesField b))
  | .pair, .pairs l => encodePairs pid l
  | _, _ => .error .typeError

/-- `encode_props`. -/
def encodeProps : PropDict → Except PyError Bytes
  | [] => .ok []
  | (pid, value) :: d => do
      let item ← encodeProp pid value
      let rest ← encodeProps d
      .ok (item ++ rest)

/-- `encode_props_block`. -/
def encodePropsBlock (d : PropDict) : Except PyError Bytes :=
  if d = [] then encodeVarint 0
  else do
    let raw ← encodeProps d
    let len ← encodeVarint raw.length
    .ok (len ++ raw)

/-! ## Decoding -/

/-- `f"\x7bn:#04x\x7d"`. -/
def hexByte (b : UInt8) : String :=
  let digit (n : Nat) : Char := (Nat.digitChar n)
  String.ofList ['0', 'x', digit (b.toNat / 16), digit (b.toNat % 16)]

/-- The body of the loop of `decode_props_block` after the property id was read: the
    dictionary with the value at `pos` stored under `pid`, and the bytes read. -/
def decodeProp (buf : Bytes) (pid : PropertyID) (pos : Nat) (d : PropDict) :
    Except PyError (PropDict × Nat) :=
  match pid.wireType with
  | .byte => do
      let b ← byteAt buf pos
      .ok (Dict.set d pid (.int b.toNat), 1)
  | .uint16 => do
      let n ← unpackH buf pos
      .ok (Dict.set d pid (.int n), 2)
  | .uint32 => do
      let n ← unpackI buf pos
      .ok (Dict.set d pid (.int n), 4)
  | .varint => do
      let (val, vn) ← decodeVarint buf pos
      .ok (Dict.set d pid (.int val), vn)
  | .str => do
      let (val, sn) ← decodeStr buf pos
      .ok (Dict.set d pid (.str val), sn)
  | .bytesData => do
      let (val, bn) ← decodeBytesField buf pos
      .ok (Dict.set d pid (.bytes val), bn)
  | .pair => do
      let (k, kn) ← decodeStr buf pos
      let (v, vn) ← decodeStr buf (pos + kn)
      let pairs := match Dict.get? d pid with
        | some (.pairs l) => l
        | _ => []
      .ok (Dict.set d pid (.pairs (pairs ++ [(k, v)])), kn + vn)

/-- The `while pos < end` loop of `decode_props_block`. -/
def decodePropsLoop (buf : Bytes) (fin pos : Nat) (d : PropDict) : Except PyError PropDict :=
  if _h : pos < fin then do
    let b ← byteAt buf pos
    match PropertyID.ofVal? b with
    | none => .error (.valueError ("Unknown property ID: " ++ hexByte b))
    | some pid =>
        let (d', n) ← decodeProp buf pid (pos + 1) d
        decodePropsLoop buf fin (pos + 1 + n) d'
  else .ok d
termination_by fin - pos
decreasing_by omega

/-- `decode_props_block`: the dictionary and the bytes consumed, length prefix included. -/
def decodePropsBlock (buf : Bytes) (offset : Nat) : Except PyError (PropDict × Nat) := do
  let (propsLen, n) ← decodeVarint buf offset
  let d ← decodePropsLoop buf (offset + n + propsLen) (offset + n) []
  .ok (d, n + propsLen)

/-! ## Round trip of a dictionary -/

/-- The value of `pid` as the decoder builds it: the Lean type of its wire type, and at
    least one pair for `USER_PROPERTY`. -/
def WellTyped (pid : PropertyID) (value : PropVal) : Prop :=
  match pid.wireType, value with
  | .byte, .int _ | .uint16, .int _ | .uint32, .int _ | .varint, .int _ => True
  | .str, .str _ | .bytesData, .bytes _ => True
  | .pair, .pairs l => l ≠ []
  | _, _ => False

/-- A dictionary the encoder can be given: one well-typed item per id. -/
structure WfDict (d : PropDict) : Prop where
  nodup : (Dict.keys d).Nodup
  wellTyped : ∀ item ∈ d, WellTyped item.1 item.2

theorem byteAt_pid {buf rest : Bytes} {pos : Nat} {pid : PropertyID}
    (hd : buf.drop pos = pid.val :: rest) :
    byteAt buf pos = .ok pid.val ∧ PropertyID.ofVal? pid.val = some pid :=
  ⟨byteAt_of_drop hd, PropertyID.ofVal?_val pid⟩

/-- One turn of the decoder loop on an item that `decodeProp` reads. -/
theorem decodePropsLoop_step {buf rest : Bytes} {fin pos n : Nat} {pid : PropertyID}
    {d d' : PropDict} (hlt : pos < fin) (hd : buf.drop pos = pid.val :: rest)
    (hp : decodeProp buf pid (pos + 1) d = .ok (d', n)) :
    decodePropsLoop buf fin pos d = decodePropsLoop buf fin (pos + 1 + n) d' := by
  obtain ⟨hb, hv⟩ := byteAt_pid hd
  rw [decodePropsLoop, dif_pos hlt, hb]
  simp only [ok_bind, hv, hp]

/-- `decodeProp` reads back the value of a single-item property. -/
theorem decodeProp_of_drop {buf item rest : Bytes} {pos : Nat} {pid : PropertyID}
    {value : PropVal} (d : PropDict) (hw : WellTyped pid value) (hne : pid.wireType ≠ .pair)
    (he : encodeProp pid value = .ok item) (hd : buf.drop pos = item ++ rest) :
    ∃ bs n, item = pid.val :: bs ∧ n = bs.length ∧
      decodeProp buf pid (pos + 1) d = .ok (Dict.set d pid value, n) := by
  unfold WellTyped at hw
  unfold encodeProp at he
  unfold decodeProp
  cases ht : pid.wireType <;> cases value <;> simp only [ht] at hw he hne ⊢ <;>
    (try exact absurd rfl hne) <;>
    obtain ⟨bs, hb, hi⟩ := bind_eq_ok.mp he <;>
    simp only [Except.ok.injEq] at hi <;> subst hi <;>
    have hd1 := drop_succ_of_drop hd <;> refine ⟨bs, bs.length, rfl, rfl, ?_⟩
  · obtain ⟨b, rfl, hn⟩ := packB_eq_ok hb
    rw [byteAt_of_drop hd1, ok_bind, hn]
    rfl
  · obtain ⟨k, hk, hn⟩ := unpackH_of_drop hb hd1
    rw [hk, ok_bind, hn, packH_length hb]
  · obtain ⟨k, hk, hn⟩ := unpackI_of_drop hb hd1
    rw [hk, ok_bind, hn, packI_length hb]
  · obtain ⟨k, hk, hn⟩ := decodeVarint_of_drop hb hd1
    rw [hk, ok_bind, hn]
  · rw [decodeStr_of_drop hb hd1, ok_bind]
  · rw [decodeBytesField_of_drop hb hd1, ok_bind]

/-- One turn of the decoder loop on a user property. -/
theorem decodePropsLoop_pair {buf kb vb rest : Bytes} {fin pos : Nat} {pid : PropertyID}
    {k v : String} (d : PropDict) (ht : pid.wireType = .pair) (hk : encodeStr k = .ok kb)
    (hv : encodeStr v = .ok vb) (hd : buf.drop pos = pid.val :: (kb ++ vb) ++ rest)
    (hlt : pos < fin) :
    decodePropsLoop buf fin pos d =
      decodePropsLoop buf fin (pos + (pid.val :: (kb ++ vb)).length)
        (Dict.set d pid (.pairs ((match Dict.get? d pid with
          | some (.pairs l) => l
          | _ => []) ++ [(k, v)]))) := by
  have hd1 : buf.drop (pos + 1) = kb ++ (vb ++ rest) := by
    rw [← List.append_assoc]; exact drop_succ_of_drop hd
  have hd2 := drop_add_of_drop hd1
  have hp : decodeProp buf pid (pos + 1) d = .ok (Dict.set d pid (.pairs ((match
      Dict.get? d pid with
        | some (.pairs l) => l
        | _ => []) ++ [(k, v)])), kb.length + vb.length) := by
    unfold decodeProp
    simp only [ht, decodeStr_of_drop hk hd1, ok_bind, decodeStr_of_drop hv hd2]
  rw [decodePropsLoop_step hlt hd hp]
  congr 1
  simp only [List.length_cons, List.length_append]
  omega

/-- The decoder loop over the pairs `l` extends the pairs already stored last. -/
theorem decodePropsLoop_pairs {buf : Bytes} {fin : Nat} {pid : PropertyID} {d : PropDict}
    (ht : pid.wireType = .pair) (hd0 : pid ∉ Dict.keys d) (l : UserProperties) :
    ∀ (l0 : UserProperties) (item rest : Bytes) (pos : Nat), encodePairs pid l = .ok item →
      buf.drop pos = item ++ rest → pos + item.length ≤ fin →
      decodePropsLoop buf fin pos (d ++ [(pid, .pairs l0)]) =
        decodePropsLoop buf fin (pos + item.length) (d ++ [(pid, .pairs (l0 ++ l))]) := by
  induction l with
  | nil =>
    intro l0 item rest pos he _ _
    simp only [encodePairs, Except.ok.injEq] at he
    subst he
    simp
  | cons kv l ih =>
    intro l0 item rest pos he hd hf
    obtain ⟨k, v⟩ := kv
    obtain ⟨kb, hk, he⟩ := bind_eq_ok.mp he
    obtain ⟨vb, hv, he⟩ := bind_eq_ok.mp he
    obtain ⟨more, hm, he⟩ := bind_eq_ok.mp he
    simp only [Except.ok.injEq] at he
    subst he
    rw [List.append_assoc] at hd
    have hlt : pos < fin := by
      rw [List.length_append, List.length_cons] at hf; omega
    rw [decodePropsLoop_pair _ ht hk hv hd hlt, Dict.get?_append_singleton _ hd0]
    simp only [Dict.set_append_singleton _ _ hd0]
    rw [ih (l0 ++ [(k, v)]) more rest _ hm (drop_add_of_drop hd)
      (by rw [List.length_append] at hf; omega)]
    rw [List.append_assoc l0, List.singleton_append, List.length_append, Nat.add_assoc]

/-- The decoder loop stores a new item exactly as the encoder was given it. -/
theorem decodePropsLoop_item {buf item rest : Bytes} {fin pos : Nat} {pid : PropertyID}
    {value : PropVal} {d : PropDict} (hw : WellTyped pid value) (hd0 : pid ∉ Dict.keys d)
    (he : encodeProp pid value = .ok item) (hd : buf.drop pos = item ++ rest)
    (hf : pos + item.length ≤ fin) :
    decodePropsLoop buf fin pos d =
      decodePropsLoop buf fin (pos + item.length) (d ++ [(pid, value)]) := by
  by_cases ht : pid.wireType = .pair
  · unfold encodeProp at he
    unfold WellTyped at hw
    cases value with
    | int _ | str _ | bytes _ => simp only [ht] at hw
    | pairs l =>
      simp only [ht] at he hw
      cases l with
      | nil => exact absurd rfl hw
      | cons kv l =>
        obtain ⟨k, v⟩ := kv
        obtain ⟨kb, hk, he⟩ := bind_eq_ok.mp he
        obtain ⟨vb, hv, he⟩ := bind_eq_ok.mp he
        obtain ⟨more, hm, he⟩ := bind_eq_ok.mp he
        simp only [Except.ok.injEq] at he
        subst he
        rw [List.append_assoc] at hd
        have hlt : pos < fin := by
          rw [List.length_append, List.length_cons] at hf; omega
        have hnone := (Dict.get?_eq_none_iff d pid).mpr hd0
        rw [decodePropsLoop_pair _ ht hk hv hd hlt, hnone]
        simp only [Dict.set_of_not_mem _ hd0, List.nil_append]
        rw [decodePropsLoop_pairs ht hd0 l [(k, v)] more rest _ hm (drop_add_of_drop hd)
          (by rw [List.length_append] at hf; omega)]
        rw [List.singleton_append, List.length_append, Nat.add_assoc]
  · obtain ⟨bs, n, rfl, rfl, hp⟩ := decodeProp_of_drop d hw ht he hd
    have hlt : pos < fin := by rw [List.length_cons] at hf; omega
    rw [decodePropsLoop_step hlt hd hp, Dict.set_of_not_mem _ hd0]
    congr 1
    rw [List.length_cons]
    omega

/-- The decoder loop inverts `encode_props` on a well-formed dictionary. -/
theorem decodePropsLoop_encodeProps {buf : Bytes} {fin : Nat} (d' : PropDict) :
    ∀ (d : PropDict) (raw rest : Bytes) (pos : Nat), WfDict (d ++ d') →
      encodeProps d' = .ok raw → buf.drop pos = raw ++ rest → fin = pos + raw.length →
      decodePropsLoop buf fin pos d = .ok (d ++ d') := by
  induction d' with
  | nil =>
    intro d raw rest pos _ he _ hf
    simp only [encodeProps, Except.ok.injEq] at he
    subst he
    rw [decodePropsLoop, dif_neg (by simp at hf; omega), List.append_nil]
  | cons item d' ih =>
    intro d raw rest pos hw he hd hf
    obtain ⟨pid, value⟩ := item
    obtain ⟨item, hi, he⟩ := bind_eq_ok.mp he
    obtain ⟨more, hm, he⟩ := bind_eq_ok.mp he
    simp only [Except.ok.injEq] at he
    subst he
    rw [List.append_assoc] at hd
    rw [List.length_append] at hf
    have hnew : pid ∉ Dict.keys d := by
      have hn := hw.nodup
      simp only [Dict.keys, List.map_append, List.map_cons, List.nodup_append] at hn
      intro hmem
      exact hn.2.2 pid hmem pid List.mem_cons_self rfl
    have hwt : WellTyped pid value :=
      hw.wellTyped (pid, value) (List.mem_append_right _ List.mem_cons_self)
    rw [decodePropsLoop_item hwt hnew hi hd (by omega)]
    have hassoc : d ++ (pid, value) :: d' = (d ++ [(pid, value)]) ++ d' := by simp
    rw [hassoc] at hw ⊢
    exact ih _ more rest _ hw hm (drop_add_of_drop hd) (by omega)

/-- What `encode_props_block` wrote at `pos` is read back there. -/
theorem decodePropsBlock_of_drop {buf bs rest : Bytes} {pos : Nat} {d : PropDict}
    (hw : WfDict d) (h : encodePropsBlock d = .ok bs) (hd : buf.drop pos = bs ++ rest) :
    decodePropsBlock buf pos = .ok (d, bs.length) := by
  unfold encodePropsBlock at h
  unfold decodePropsBlock
  split at h
  · next hnil =>
    subst hnil
    obtain ⟨k, hk, hk0⟩ := decodeVarint_of_drop h hd
    have : k = 0 := by exact_mod_cast hk0
    subst this
    rw [hk]
    simp only [ok_bind]
    rw [decodePropsLoop, dif_neg (by omega), ok_bind, Nat.add_zero]
  · obtain ⟨raw, hraw, h⟩ := bind_eq_ok.mp h
    obtain ⟨len, hlen, h⟩ := bind_eq_ok.mp h
    simp only [Except.ok.injEq] at h
    subst h
    rw [List.append_assoc] at hd
    obtain ⟨k, hk, hkl⟩ := decodeVarint_of_drop hlen hd
    have : k = raw.length := by exact_mod_cast hkl
    subst this
    have hdec := decodePropsLoop_encodeProps d [] raw rest (pos + len.length) hw hraw
      (drop_add_of_drop hd) rfl
    rw [hk]
    simp only [ok_bind]
    rw [hdec, ok_bind, List.nil_append, List.length_append]

end Zmqtt
