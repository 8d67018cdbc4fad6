/-
  The MQTT 5 property records and their blocks (`encode_*_properties` and
  `decode_*_properties` of `_internal/packets/properties.py`).

  `PropCodec` packages the two maps between a record and its dictionary with the
  facts every record satisfies: `ofDict` inverts `toDict`, the dictionary has one
  well-typed item per id, and it is empty only for the record with no property.
  `decodeProperties_of_drop` is the round trip of a block, proved once for every
  `PropCodec`; each record of the source is one instance.
-/
import Zmqtt.Packets.PropertyBlock

namespace Zmqtt

open PropertyID (WireType)

/-! ## Records and their dictionaries -/

/-- `{pid: val for pid, val in items if val is not None}`, for distinct ids. -/
def propItems : List (PropertyID × Option PropVal) → PropDict
  | [] => []
  | (_, none) :: items => propItems items
  | (pid, some value) :: items => (pid, value) :: propItems items

/-- `_up`: the user properties, when there are any. -/
def up (l : UserProperties) : PropDict :=
  if l = [] then [] else [(.userProperty, .pairs l)]

/-- The dictionary of a record: its set fields, then its user properties
    (`d.update(_up(props))`; the key is new, so it goes last). -/
def recordDict (items : List (PropertyID × Option PropVal)) (l : UserProperties) : PropDict :=
  propItems items ++ up l

/-- `d.get(pid)` for an integer property. -/
def PropVal.int? : Option PropVal → Option Int
  | some (.int n) => some n
  | _ => none

/-- `bool(d[pid]) if pid in d else None`. -/
def PropVal.bool? : Option PropVal → Option Bool
  | some (.int n) => some (n ≠ 0)
  | _ => none

/-- `d.get(pid)` for a string property. -/
def PropVal.str? : Option PropVal → Option String
  | some (.str s) => some s
  | _ => none

/-- `d.get(pid)` for a binary property. -/
def PropVal.bytes? : Option PropVal → Option Bytes
  | some (.bytes b) => some b
  | _ => none

/-- `_up_tuple`. -/
def upTuple (d : PropDict) : UserProperties :=
  match Dict.get? d .userProperty with
  | some (.pairs l) => l
  | _ => []

/-- A field of a record: its value, when set, has the type of its id. -/
structure FieldOk (pid : PropertyID) (v : Option PropVal) : Prop where
  wellTyped : ∀ value, v = some value → WellTyped pid value

/-- The wire types whose values are integers. -/
def PropertyID.WireType.isInt : WireType → Bool
  | .byte | .uint16 | .uint32 | .varint => true
  | .str | .bytesData | .pair => false

section FieldOk

variable {pid : PropertyID}

theorem wellTyped_int (n : Int) (h : pid.wireType.isInt = true) : WellTyped pid (.int n) := by
  unfold WellTyped
  cases ht : pid.wireType <;> simp_all [WireType.isInt]

@[simp] theorem fieldOk_int (o : Option Int) (h : pid.wireType.isInt = true) :
    FieldOk pid (o.map .int) := by
  refine ⟨fun value hv => ?_⟩
  obtain ⟨n, _, rfl⟩ := Option.map_eq_some_iff.mp hv
  exact wellTyped_int n h

@[simp] theorem fieldOk_bool (o : Option Bool) (h : pid.wireType.isInt = true) :
    FieldOk pid (o.map .ofBool) := by
  refine ⟨fun value hv => ?_⟩
  obtain ⟨b, _, rfl⟩ := Option.map_eq_some_iff.mp hv
  exact wellTyped_int _ h

@[simp] theorem fieldOk_str (o : Option String) (h : pid.wireType = .str) :
    FieldOk pid (o.map .str) := by
  refine ⟨fun value hv => ?_⟩
  obtain ⟨s, _, rfl⟩ := Option.map_eq_some_iff.mp hv
  simp [WellTyped, h]

@[simp] theorem fieldOk_bytes (o : Option Bytes) (h : pid.wireType = .bytesData) :
    FieldOk pid (o.map .bytes) := by
  refine ⟨fun value hv => ?_⟩
  obtain ⟨b, _, rfl⟩ := Option.map_eq_some_iff.mp hv
  simp [WellTyped, h]

end FieldOk

section PropItems

variable (pid pid' : PropertyID) (v : Option PropVal)
  (items : List (PropertyID × Option PropVal)) (l : UserProperties)

@[simp] theorem get?_recordDict_nil :
    Dict.get? (recordDict [] l) pid =
      if pid = .userProperty ∧ l ≠ [] then some (.pairs l) else none := by
  unfold recordDict up propItems
  by_cases hl : l = []
  · simp [hl]
  · simp only [hl, if_false, List.nil_append, Dict.get?_cons, Dict.get?_nil, ne_eq,
      not_false_eq_true, and_true]
    by_cases hp : pid = .userProperty
    · simp [hp]
    · rw [if_neg hp, if_neg (fun h => hp h.symm)]

@[simp] theorem get?_recordDict_cons :
    Dict.get? (recordDict ((pid', v) :: items) l) pid =
      if pid' = pid then v.or (Dict.get? (recordDict items l) pid)
      else Dict.get? (recordDict items l) pid := by
  cases v with
  | none => by_cases h : pid' = pid <;> simp [recordDict, propItems, h]
  | some value =>
    by_cases h : pid' = pid <;> simp [recordDict, propItems, h, Dict.get?_cons]

@[simp] theorem recordDict_nil_eq_nil : recordDict [] l = [] ↔ l = [] := by
  unfold recordDict up propItems
  by_cases h : l = [] <;> simp [h]

@[simp] theorem recordDict_cons_eq_nil :
    recordDict ((pid, v) :: items) l = [] ↔ v = none ∧ recordDict items l = [] := by
  cases v with
  | none => simp [recordDict, propItems]
  | some value => simp [recordDict, propItems]

theorem keys_propItems_sublist :
    (Dict.keys (propItems items)).Sublist (items.map Prod.fst) := by
  induction items with
  | nil => exact List.Sublist.slnil
  | cons item items ih =>
    obtain ⟨pid, v⟩ := item
    cases v with
    | none => exact ih.cons pid
    | some value => exact ih.cons_cons pid

/-- A record's dictionary is well formed when its ids are distinct and every set field
    has the type of its id. -/
theorem wfDict_recordDict (hn : (items.map Prod.fst ++ [PropertyID.userProperty]).Nodup)
    (hw : ∀ item ∈ items, FieldOk item.1 item.2) : WfDict (recordDict items l) := by
  constructor
  · have hup : (Dict.keys (up l)).Sublist [.userProperty] := by
      unfold up
      by_cases hl : l = []
      · simp [hl]
      · simp [hl]
    have hk : Dict.keys (recordDict items l) = Dict.keys (propItems items) ++ Dict.keys (up l) := by
      simp [recordDict, Dict.keys]
    rw [hk]
    exact hn.sublist ((keys_propItems_sublist items).append hup)
  · intro item hi
    rcases List.mem_append.mp hi with hi | hi
    · clear hn
      induction items with
      | nil => cases hi
      | cons it items ih =>
        obtain ⟨pid, v⟩ := it
        have hw' : ∀ item ∈ items, FieldOk item.1 item.2 :=
          fun item h => hw item (List.mem_cons_of_mem _ h)
        cases v with
        | none => exact ih hw' (List.mem_append_left _ hi) hi
        | some value =>
          rcases List.mem_cons.mp hi with rfl | hi
          · exact (hw (pid, some value) List.mem_cons_self).wellTyped value rfl
          · exact ih hw' (List.mem_append_left _ hi) hi
    · unfold up at hi
      split at hi
      · cases hi
      · next hl =>
        rw [List.mem_singleton] at hi
        subst hi
        exact hl

end PropItems

@[simp] theorem int?_map (o : Option Int) : PropVal.int? (o.map PropVal.int) = o := by
  cases o <;> rfl

@[simp] theorem bool?_map (o : Option Bool) : PropVal.bool? (o.map PropVal.ofBool) = o := by
  cases o with
  | none => rfl
  | some b => cases b <;> rfl

@[simp] theorem str?_map (o : Option String) : PropVal.str? (o.map PropVal.str) = o := by
  cases o <;> rfl

@[simp] theorem bytes?_map (o : Option Bytes) : PropVal.bytes? (o.map PropVal.bytes) = o := by
  cases o <;> rfl

@[simp] theorem upTuple_recordDict_cons (pid : PropertyID) (v : Option PropVal)
    (items : List (PropertyID × Option PropVal)) (l : UserProperties)
    (h : pid ≠ .userProperty) :
    upTuple (recordDict ((pid, v) :: items) l) = upTuple (recordDict items l) := by
  unfold upTuple
  rw [get?_recordDict_cons, if_neg h]

@[simp] theorem upTuple_recordDict_nil (l : UserProperties) : upTuple (recordDict [] l) = l := by
  unfold upTuple
  rw [get?_recordDict_nil]
  by_cases h : l = [] <;> simp [h]

/-- How a property record is turned into a dictionary and back, with the facts that make
    the round trip of its block go through. -/
structure PropCodec (α : Type) where
  empty : α
  toDict : α → PropDict
  ofDict : PropDict → α
  wf : ∀ r, WfDict (toDict r)
  ofDict_toDict : ∀ r, ofDict (toDict r) = r
  toDict_eq_nil : ∀ r, toDict r = [] ↔ r = empty

/-- `encode_*_properties`. -/
def encodeProperties {α : Type} (c : PropCodec α) (props : Option α) : Except PyError Bytes :=
  match props with
  | none => encodeVarint 0
  | some r => encodePropsBlock (c.toDict r)

/-- `decode_*_properties`. -/
def decodeProperties {α : Type} (c : PropCodec α) (buf : Bytes) (offset : Nat) :
    Except PyError (Option α × Nat) := do
  let (d, n) ← decodePropsBlock buf offset
  if d = [] then .ok (none, n) else .ok (some (c.ofDict d), n)

/-- A record without any property is what an empty block stands for: it is read as `None`. -/
def normProps {α : Type} [DecidableEq α] (c : PropCodec α) (props : Option α) : Option α :=
  if props = some c.empty then none else props

/-- What `encode_*_properties` wrote at `pos` is read back there, an empty record as `None`. -/
theorem decodeProperties_of_drop {α : Type} [DecidableEq α] {c : PropCodec α} {props : Option α}
    {buf bs rest : Bytes} {pos : Nat} (h : encodeProperties c props = .ok bs)
    (hd : buf.drop pos = bs ++ rest) :
    decodeProperties c buf pos = .ok (normProps c props, bs.length) := by
  unfold decodeProperties
  cases props with
  | none =>
    have hb : encodePropsBlock [] = .ok bs := h
    have hwf : WfDict [] := ⟨List.nodup_nil, fun _ hi => absurd hi List.not_mem_nil⟩
    rw [decodePropsBlock_of_drop hwf hb hd]
    simp [normProps]
  | some r =>
    rw [decodePropsBlock_of_drop (c.wf r) h hd]
    by_cases he : c.toDict r = []
    · rw [he, (c.toDict_eq_nil r).mp he]
      simp [normProps]
    · have hr : r ≠ c.empty := fun hr => he ((c.toDict_eq_nil r).mpr hr)
      simp [he, normProps, hr, c.ofDict_toDict]

/-! ## The records of the source

  Each record lists its fields in the order of its `encode_*_properties` function; the
  fields of `ofDict` are those of its `decode_*_properties` function. -/

def ConnectProperties.items (r : ConnectProperties) : List (PropertyID × Option PropVal) :=
  [(.sessionExpiryInterval, r.sessionExpiryInterval.map .int),
    (.receiveMaximum, r.receiveMaximum.map .int),
    (.maximumPacketSize, r.maximumPacketSize.map .int),
    (.topicAliasMaximum, r.topicAliasMaximum.map .int),
    (.requestResponseInformation, r.requestResponseInformation.map .ofBool),
    (.requestProblemInformation, r.requestProblemInformation.map .ofBool),
    (.authenticationMethod, r.authenticationMethod.map .str),
    (.authenticationData, r.authenticationData.map .bytes)]

def connectCodec : PropCodec ConnectProperties where
  empty := {}
  toDict r := recordDict r.items r.userProperties
  ofDict d := {
    sessionExpiryInterval := PropVal.int? (Dict.get? d .sessionExpiryInterval)
    receiveMaximum := PropVal.int? (Dict.get? d .receiveMaximum)
    maximumPacketSize := PropVal.int? (Dict.get? d .maximumPacketSize)
    topicAliasMaximum := PropVal.int? (Dict.get? d .topicAliasMaximum)
    requestResponseInformation := PropVal.bool? (Dict.get? d .requestResponseInformation)
    requestProblemInformation := PropVal.bool? (Dict.get? d .requestProblemInformation)
    authenticationMethod := PropVal.str? (Dict.get? d .authenticationMethod)
    authenticationData := PropVal.bytes? (Dict.get? d .authenticationData)
    userProperties := upTuple d }
  wf r := wfDict_recordDict _ _ (by simp [ConnectProperties.items])
    (by simp (disch := decide) [ConnectProperties.items])
  ofDict_toDict r := by simp [ConnectProperties.items]
  toDict_eq_nil r := by cases r; simp [ConnectProperties.items]

abbrev encodeConnectProperties := encodeProperties connectCodec

abbrev decodeConnectProperties := decodeProperties connectCodec

def WillProperties.items (r : WillProperties) : List (PropertyID × Option PropVal) :=
  [(.willDelayInterval, r.willDelayInterval.map .int),
    (.payloadFormatIndicator, r.payloadFormatIndicator.map .int),
    (.messageExpiryInterval, r.messageExpiryInterval.map .int),
    (.contentType, r.contentType.map .str),
    (.responseTopic, r.responseTopic.map .str),
    (.correlationData, r.correlationData.map .bytes)]

def willCodec : PropCodec WillProperties where
  empty := {}
  toDict r := recordDict r.items r.userProperties
  ofDict d := {
    willDelayInterval := PropVal.int? (Dict.get? d .willDelayInterval)
    payloadFormatIndicator := PropVal.int? (Dict.get? d .payloadFormatIndicator)
    messageExpiryInterval := PropVal.int? (Dict.get? d .messageExpiryInterval)
    contentType := PropVal.str? (Dict.get? d .contentType)
    responseTopic := PropVal.str? (Dict.get? d .responseTopic)
    correlationData := PropVal.bytes? (Dict.get? d .correlationData)
    userProperties := upTuple d }
  wf r := wfDict_recordDict _ _ (by simp [WillProperties.items])
    (by simp (disch := decide) [WillProperties.items])
  ofDict_toDict r := by simp [WillProperties.items]
  toDict_eq_nil r := by cases r; simp [WillProperties.items]

abbrev encodeWillProperties := encodeProperties willCodec

abbrev decodeWillProperties := decodeProperties willCodec

def ConnAckProperties.items (r : ConnAckProperties) : List (PropertyID × Option PropVal) :=
  [(.sessionExpiryInterval, r.sessionExpiryInterval.map .int),
    (.receiveMaximum, r.receiveMaximum.map .int),
    (.maximumQos, r.maximumQos.map .int),
    (.retainAvailable, r.retainAvailable.map .ofBool),
    (.maximumPacketSize, r.maximumPacketSize.map .int),
    (.assignedClientIdentifier, r.assignedClientIdentifier.map .str),
    (.topicAliasMaximum, r.topicAliasMaximum.map .int),
    (.reasonString, r.reasonString.map .str),
    (.wildcardSubscriptionAvailable, r.wildcardSubscriptionAvailable.map .ofBool),
    (.subscriptionIdentifierAvailable, r.subscriptionIdentifierAvailable.map .ofBool),
    (.sharedSubscriptionAvailable, r.sharedSubscriptionAvailable.map .ofBool),
    (.serverKeepAlive, r.serverKeepAlive.map .int),
    (.responseInformation, r.responseInformation.map .str),
    (.serverReference, r.serverReference.map .str),
    (.authenticationMethod, r.authenticationMethod.map .str),
    (.authenticationData, r.authenticationData.map .bytes)]

def connackCodec : PropCodec ConnAckProperties where
  empty := {}
  toDict r := recordDict r.items r.userProperties
  ofDict d := {
    sessionExpiryInterval := PropVal.int? (Dict.get? d .sessionExpiryInterval)
    receiveMaximum := PropVal.int? (Dict.get? d .receiveMaximum)
    maximumQos := PropVal.int? (Dict.get? d .maximumQos)
    retainAvailable := PropVal.bool? (Dict.get? d .retainAvailable)
    maximumPacketSize := PropVal.int? (Dict.get? d .maximumPacketSize)
    assignedClientIdentifier := PropVal.str? (Dict.get? d .assignedClientIdentifier)
    topicAliasMaximum := PropVal.int? (Dict.get? d .topicAliasMaximum)
    reasonString := PropVal.str? (Dict.get? d .reasonString)
    wildcardSubscriptionAvailable := PropVal.bool? (Dict.get? d .wildcardSubscriptionAvailable)
    subscriptionIdentifierAvailable := PropVal.bool? (Dict.get? d .subscriptionIdentifierAvailable)
    sharedSubscriptionAvailable := PropVal.bool? (Dict.get? d .sharedSubscriptionAvailable)
    serverKeepAlive := PropVal.int? (Dict.get? d .serverKeepAlive)
    responseInformation := PropVal.str? (Dict.get? d .responseInformation)
    serverReference := PropVal.str? (Dict.get? d .serverReference)
    authenticationMethod := PropVal.str? (Dict.get? d .authenticationMethod)
    authenticationData := PropVal.bytes? (Dict.get? d .authenticationData)
    userProperties := upTuple d }
  wf r := wfDict_recordDict _ _ (by simp [ConnAckProperties.items])
    (by simp (disch := decide) [ConnAckProperties.items])
  ofDict_toDict r := by simp [ConnAckProperties.items]
  toDict_eq_nil r := by cases r; simp [ConnAckProperties.items]

abbrev encodeConnackProperties := encodeProperties connackCodec

abbrev decodeConnackProperties := decodeProperties connackCodec

def PublishProperties.items (r : PublishProperties) : List (PropertyID × Option PropVal) :=
  [(.payloadFormatIndicator, r.payloadFormatIndicator.map .int),
    (.messageExpiryInterval, r.messageExpiryInterval.map .int),
    (.topicAlias, r.topicAlias.map .int),
    (.responseTopic, r.responseTopic.map .str),
    (.correlationData, r.correlationData.map .bytes),
    (.subscriptionIdentifier, r.subscriptionIdentifier.map .int),
    (.contentType, r.contentType.map .str)]

def publishCodec : PropCodec PublishProperties where
  empty := {}
  toDict r := recordDict r.items r.userProperties
  ofDict d := {
    payloadFormatIndicator := PropVal.int? (Dict.get? d .payloadFormatIndicator)
    messageExpiryInterval := PropVal.int? (Dict.get? d .messageExpiryInterval)
    topicAlias := PropVal.int? (Dict.get? d .topicAlias)
    responseTopic := PropVal.str? (Dict.get? d .responseTopic)
    correlationData := PropVal.bytes? (Dict.get? d .correlationData)
    subscriptionIdentifier := PropVal.int? (Dict.get? d .subscriptionIdentifier)
    contentType := PropVal.str? (Dict.get? d .contentType)
    userProperties := upTuple d }
  wf r := wfDict_recordDict _ _ (by simp [PublishProperties.items])
    (by simp (disch := decide) [PublishProperties.items])
  ofDict_toDict r := by simp [PublishProperties.items]
  toDict_eq_nil r := by cases r; simp [PublishProperties.items]

abbrev encodePublishProperties := encodeProperties publishCodec

abbrev decodePublishProperties := decodeProperties publishCodec

def PubAckProperties.items (r : PubAckProperties) : List (PropertyID × Option PropVal) :=
  [(.reasonString, r.reasonString.map .str)]

def pubackCodec : PropCodec PubAckProperties where
  empty := {}
  toDict r := recordDict r.items r.userProperties
  ofDict d := {
    reasonString := PropVal.str? (Dict.get? d .reasonString)
    userProperties := upTuple d }
  wf r := wfDict_recordDict _ _ (by simp [PubAckProperties.items])
    (by simp (disch := decide) [PubAckProperties.items])
  ofDict_toDict r := by simp [PubAckProperties.items]
  toDict_eq_nil r := by cases r; simp [PubAckProperties.items]

abbrev encodePubackProperties := encodeProperties pubackCodec

abbrev decodePubackProperties := decodeProperties pubackCodec

def SubscribeProperties.items (r : SubscribeProperties) : List (PropertyID × Option PropVal) :=
  [(.subscriptionIdentifier, r.subscriptionIdentifier.map .int)]

def subscribeCodec : PropCodec SubscribeProperties where
  empty := {}
  toDict r := recordDict r.items r.userProperties
  ofDict d := {
    subscriptionIdentifier := PropVal.int? (Dict.get? d .subscriptionIdentifier)
    userProperties := upTuple d }
  wf r := wfDict_recordDict _ _ (by simp [SubscribeProperties.items])
    (by simp (disch := decide) [SubscribeProperties.items])
  ofDict_toDict r := by simp [SubscribeProperties.items]
  toDict_eq_nil r := by cases r; simp [SubscribeProperties.items]

abbrev encodeSubscribeProperties := encodeProperties subscribeCodec

abbrev decodeSubscribeProperties := decodeProperties subscribeCodec

def SubAckProperties.items (r : SubAckProperties) : List (PropertyID × Option PropVal) :=
  [(.reasonString, r.reasonString.map .str)]

def subackCodec : PropCodec SubAckProperties where
  empty := {}
  toDict r := recordDict r.items r.userProperties
  ofDict d := {
    reasonString := PropVal.str? (Dict.get? d .reasonString)
    userProperties := upTuple d }
  wf r := wfDict_recordDict _ _ (by simp [SubAckProperties.items])
    (by simp (disch := decide) [SubAckProperties.items])
  ofDict_toDict r := by simp [SubAckProperties.items]
  toDict_eq_nil r := by cases r; simp [SubAckProperties.items]

abbrev encodeSubackProperties := encodeProperties subackCodec

abbrev decodeSubackProperties := decodeProperties subackCodec

def UnsubscribeProperties.items (_ : UnsubscribeProperties) : List (PropertyID × Option PropVal) :=
  []

def unsubscribeCodec : PropCodec UnsubscribeProperties where
  empty := {}
  toDict r := recordDict r.items r.userProperties
  ofDict d := { userProperties := upTuple d }
  wf r := wfDict_recordDict _ _ (by simp [UnsubscribeProperties.items])
    (by simp (disch := decide) [UnsubscribeProperties.items])
  ofDict_toDict r := by simp [UnsubscribeProperties.items]
  toDict_eq_nil r := by cases r; simp [UnsubscribeProperties.items]

abbrev encodeUnsubscribeProperties := encodeProperties unsubscribeCodec

abbrev decodeUnsubscribeProperties := decodeProperties unsubscribeCodec

def UnsubAckProperties.items (r : UnsubAckProperties) : List (PropertyID × Option PropVal) :=
  [(.reasonString, r.reasonString.map .str)]

def unsubackCodec : PropCodec UnsubAckProperties where
  empty := {}
  toDict r := recordDict r.items r.userProperties
  ofDict d := {
    reasonString := PropVal.str? (Dict.get? d .reasonString)
    userProperties := upTuple d }
  wf r := wfDict_recordDict _ _ (by simp [UnsubAckProperties.items])
    (by simp (disch := decide) [UnsubAckProperties.items])
  ofDict_toDict r := by simp [UnsubAckProperties.items]
  toDict_eq_nil r := by cases r; simp [UnsubAckProperties.items]

abbrev encodeUnsubackProperties := encodeProperties unsubackCodec

abbrev decodeUnsubackProperties := decodeProperties unsubackCodec

def DisconnectProperties.items (r : DisconnectProperties) : List (PropertyID × Option PropVal) :=
  [(.sessionExpiryInterval, r.sessionExpiryInterval.map .int),
    (.reasonString, r.reasonString.map .str),
    (.serverReference, r.serverReference.map .str)]

def disconnectCodec : PropCodec DisconnectProperties where
  empty := {}
  toDict r := recordDict r.items r.userProperties
  ofDict d := {
    sessionExpiryInterval := PropVal.int? (Dict.get? d .sessionExpiryInterval)
    reasonString := PropVal.str? (Dict.get? d .reasonString)
    serverReference := PropVal.str? (Dict.get? d .serverReference)
    userProperties := upTuple d }
  wf r := wfDict_recordDict _ _ (by simp [DisconnectProperties.items])
    (by simp (disch := decide) [DisconnectProperties.items])
  ofDict_toDict r := by simp [DisconnectProperties.items]
  toDict_eq_nil r := by cases r; simp [DisconnectProperties.items]

abbrev encodeDisconnectProperties := encodeProperties disconnectCodec

abbrev decodeDisconnectProperties := decodeProperties disconnectCodec

def AuthProperties.items (r : AuthProperties) : List (PropertyID × Option PropVal) :=
  [(.authenticationMethod, r.authenticationMethod.map .str),
    (.authenticationData, r.authenticationData.map .bytes),
    (.reasonString, r.reasonString.map .str)]

def authCodec : PropCodec AuthProperties where
  empty := {}
  toDict r := recordDict r.items r.userProperties
  ofDict d := {
    authenticationMethod := PropVal.str? (Dict.get? d .authenticationMethod)
    authenticationData := PropVal.bytes? (Dict.get? d .authenticationData)
    reasonString := PropVal.str? (Dict.get? d .reasonString)
    userProperties := upTuple d }
  wf r := wfDict_recordDict _ _ (by simp [AuthProperties.items])
    (by simp (disch := decide) [AuthProperties.items])
  ofDict_toDict r := by simp [AuthProperties.items]
  toDict_eq_nil r := by cases r; simp [AuthProperties.items]

abbrev encodeAuthProperties := encodeProperties authCodec

abbrev decodeAuthProperties := decodeProperties authCodec

end Zmqtt
