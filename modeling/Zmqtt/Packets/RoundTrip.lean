/-
  The codec round trip: `decode` inverts `encode`, up to what the format cannot
  carry (`norm`).

  `decode_buildPacket` reduces the framing to the body: whatever follows a built
  packet in the buffer, `decode` hands exactly its body to `decodeBody`. Each
  packet type then has one lemma `decode*_encode*`: the body its encoder builds
  is read back as the packet, normalised.
-/
import Zmqtt.Packets.Codec

namespace Zmqtt

/-! ## What the format keeps -/

/-- The properties of a packet: dropped in MQTT 3.1.1, an empty record read as `None`. -/
def normProperties {α : Type} [DecidableEq α] (c : PropCodec α) (version : Version)
    (props : Option α) : Option α :=
  if version = .v5 then normProps c props else none

def Will.norm (version : Version) (w : Will) : Will :=
  { w with properties := normProperties willCodec version w.properties }

def Connect.norm (version : Version) (p : Connect) : Connect :=
  { p with
    will := p.will.map (Will.norm version)
    properties := normProperties connectCodec version p.properties }

def ConnAck.norm (version : Version) (p : ConnAck) : ConnAck :=
  { p with properties := normProperties connackCodec version p.properties }

/-- A QoS 0 PUBLISH carries no packet id. -/
def Publish.norm (version : Version) (p : Publish) : Publish :=
  { p with
    packetId := if p.qos = .atMostOnce then none else p.packetId
    properties := normProperties publishCodec version p.properties }

/-- MQTT 3.1.1 acknowledgements carry no reason code. -/
def PubAck.norm (version : Version) (p : PubAck) : PubAck :=
  { p with
    reasonCode := if version = .v5 then p.reasonCode else 0
    properties := normProperties pubackCodec version p.properties }

/-- MQTT 3.1.1 subscriptions carry only the QoS. -/
def SubscriptionRequest.norm (version : Version) (s : SubscriptionRequest) :
    SubscriptionRequest :=
  if version = .v5 then s else { topicFilter := s.topicFilter, qos := s.qos }

def Subscribe.norm (version : Version) (p : Subscribe) : Subscribe :=
  { p with
    subscriptions := p.subscriptions.map (SubscriptionRequest.norm version)
    properties := normProperties subscribeCodec version p.properties }

def SubAck.norm (version : Version) (p : SubAck) : SubAck :=
  { p with properties := normProperties subackCodec version p.properties }

def Unsubscribe.norm (version : Version) (p : Unsubscribe) : Unsubscribe :=
  { p with properties := normProperties unsubscribeCodec version p.properties }

/-- MQTT 3.1.1 UNSUBACK carries no reason codes. -/
def UnsubAck.norm (version : Version) (p : UnsubAck) : UnsubAck :=
  { p with
    reasonCodes := if version = .v5 then p.reasonCodes else []
    properties := normProperties unsubackCodec version p.properties }

/-- MQTT 3.1.1 DISCONNECT carries no reason code. -/
def Disconnect.norm (version : Version) (p : Disconnect) : Disconnect :=
  { p with
    reasonCode := if version = .v5 then p.reasonCode else 0
    properties := normProperties disconnectCodec version p.properties }

/-- AUTH is encoded the same way in both versions. -/
def Auth.norm (p : Auth) : Auth :=
  { p with properties := normProps authCodec p.properties }

/-- `norm_v`: forgets what the wire format of `version` cannot carry, and nothing else. -/
def Packet.norm (version : Version) : Packet → Packet
  | .connect p => .connect (p.norm version)
  | .connack p => .connack (p.norm version)
  | .publish p => .publish (p.norm version)
  | .puback p => .puback (p.norm version)
  | .pubrec p => .pubrec (p.norm version)
  | .pubrel p => .pubrel (p.norm version)
  | .pubcomp p => .pubcomp (p.norm version)
  | .subscribe p => .subscribe (p.norm version)
  | .suback p => .suback (p.norm version)
  | .unsubscribe p => .unsubscribe (p.norm version)
  | .unsuback p => .unsuback (p.norm version)
  | .pingreq => .pingreq
  | .pingresp => .pingresp
  | .disconnect p => .disconnect (p.norm version)
  | .auth p => .auth p.norm

/-! ## Framing -/

/-- Where `decode_varint` at offset 1 succeeds, the loop inlined in `decode` gives the same
    value and byte count. -/
theorem remainingLengthLoop_eq_some {buffer : Bytes} :
    ∀ (k i multiplier acc : Nat) (r : Nat × Nat),
      decodeVarintLoop buffer 1 k i multiplier acc = .ok r →
      remainingLengthLoop buffer k i multiplier acc = .ok (some r) := by
  intro k
  induction k with
  | zero => intro i multiplier acc r h; cases h
  | succ k ih =>
    intro i multiplier acc r h
    unfold decodeVarintLoop at h
    unfold remainingLengthLoop
    cases hb : buffer[1 + i]? with
    | none => simp [hb] at h
    | some byte =>
      simp only [hb] at h ⊢
      by_cases hc : byte &&& 0x80 = 0
      · rw [if_pos hc] at h ⊢
        simp only [Except.ok.injEq] at h
        rw [h]
      · rw [if_neg hc] at h ⊢
        exact ih _ _ _ r h

/-- The two halves of the first byte of a built packet. -/
theorem firstByte_split (t : PacketType) (flags : Fin 16) :
    let b := UInt8.ofNat ((t.val <<< 4) ||| (flags.val &&& 0x0F))
    (b.toNat >>> 4) &&& 0x0F = t.val ∧ b.toNat &&& 0x0F = flags.val := by
  cases t <;> revert flags <;> decide

/-- **Framing.** On a built packet followed by any bytes, `decode` consumes exactly the
    packet and returns what `decodeBody` makes of its body. -/
theorem decode_buildPacket {t : PacketType} {flags : Nat} {body bs : Bytes}
    (h : buildPacket t flags body = .ok bs) (hf : flags < 16) (rest : Bytes) (version : Version) :
    decode (bs ++ rest) version =
      (decodeBody t flags body version >>= fun p => .ok (some (p, bs.length))) := by
  obtain ⟨len, hlen, h⟩ := bind_eq_ok.mp h
  simp only [Except.ok.injEq] at h
  subst h
  set b := UInt8.ofNat ((t.val <<< 4) ||| (flags &&& 0x0F)) with hb
  have hsplit := firstByte_split t ⟨flags, hf⟩
  simp only [← hb] at hsplit
  have hne := encodeVarint_ne_nil hlen
  have hlp : 0 < len.length := List.length_pos_of_ne_nil hne
  have hd : (b :: (len ++ body) ++ rest).drop 1 = len ++ (body ++ rest) := by simp
  obtain ⟨k, hk, hkl⟩ := decodeVarint_of_drop hlen hd
  have hkb : k = body.length := by exact_mod_cast hkl
  subst hkb
  have hrem := remainingLengthLoop_eq_some 4 0 1 0 _ hk
  have hbody := drop_add_of_drop hd
  have h0 : byteAt (b :: (len ++ body) ++ rest) 0 = .ok b := rfl
  have hl : (b :: (len ++ body) ++ rest).length = 1 + len.length + body.length + rest.length := by
    simp only [List.cons_append, List.length_cons, List.length_append]; omega
  have hbs : (b :: (len ++ body)).length = 1 + len.length + body.length := by
    simp only [List.length_cons, List.length_append]; omega
  unfold decode
  rw [if_neg (by omega), h0]
  simp only [ok_bind, hrem, hsplit.1, hsplit.2, PacketType.ofVal?_val]
  rw [if_neg (by omega), hbody, List.take_left, hbs]

/-! ## Bodies -/

/-- The optional property block of a body, written and read only in MQTT 5. -/
theorem decodeOptProperties_of_drop {α : Type} [DecidableEq α] {c : PropCodec α}
    {props : Option α} {version : Version} {buf bs rest : Bytes} {pos : Nat}
    (h : writeIf (version = .v5) (encodeProperties c props) = .ok bs)
    (hd : buf.drop pos = bs ++ rest) :
    readIf (version = .v5) (decodeProperties c buf pos) =
      .ok (normProperties c version props, bs.length) := by
  unfold normProperties
  by_cases hv : version = .v5
  · rw [writeIf_pos hv] at h
    rw [readIf_pos hv, if_pos hv]
    exact decodeProperties_of_drop h hd
  · rw [writeIf_neg hv] at h
    simp only [Except.ok.injEq] at h
    subst h
    rw [readIf_neg hv, if_neg hv]
    rfl

/-- A property block that ends the body is read when the body goes on. -/
theorem decodeTailProperties {α : Type} [DecidableEq α] {c : PropCodec α} {props : Option α}
    {body bs : Bytes} {pos : Nat} (h : encodeProperties c props = .ok bs)
    (hd : body.drop pos = bs) :
    pos < body.length ∧ decodeProperties c body pos = .ok (normProps c props, bs.length) := by
  have hne : bs ≠ [] := by
    cases props with
    | none => exact encodeVarint_ne_nil h
    | some r =>
      change encodePropsBlock (c.toDict r) = .ok bs at h
      unfold encodePropsBlock at h
      split at h
      · exact encodeVarint_ne_nil h
      · obtain ⟨raw, _, h⟩ := bind_eq_ok.mp h
        obtain ⟨len, hlen, h⟩ := bind_eq_ok.mp h
        simp only [Except.ok.injEq] at h
        subst h
        exact List.append_ne_nil_of_left_ne_nil (encodeVarint_ne_nil hlen) raw
  refine ⟨?_, decodeProperties_of_drop h (by rw [hd, List.append_nil])⟩
  by_contra hle
  rw [List.drop_eq_nil_of_le (by omega)] at hd
  exact hne hd.symm

theorem bytesOf_singleton {n : Int} {bs : Bytes} (h : bytesOf [n] = .ok bs) :
    ∃ b : UInt8, bs = [b] ∧ (b.toNat : Int) = n := by
  have hm := map_toNat_bytesOf h
  match bs, hm with
  | [b], hm => exact ⟨b, rfl, by simpa using hm⟩

theorem bytesOf_pair {m n : Int} {bs : Bytes} (h : bytesOf [m, n] = .ok bs) :
    ∃ a b : UInt8, bs = [a, b] ∧ (a.toNat : Int) = m ∧ (b.toNat : Int) = n := by
  have hm := map_toNat_bytesOf h
  match bs, hm with
  | [a, b], hm =>
    simp only [List.map_cons, List.map_nil, List.cons.injEq, and_true] at hm
    exact ⟨a, b, rfl, hm.1, hm.2⟩

theorem decodeConnack_encodeConnack {p : ConnAck} {version : Version} {bs : Bytes}
    (h : encodeConnack p version = .ok bs) :
    ∃ body, buildPacket .connack 0 body = .ok bs ∧
      decodeConnack body version = .ok (p.norm version) := by
  obtain ⟨head, hh, h⟩ := bind_eq_ok.mp h
  obtain ⟨props, hp, h⟩ := bind_eq_ok.mp h
  refine ⟨head ++ props, h, ?_⟩
  obtain ⟨a, b, rfl, ha, hb⟩ := bytesOf_pair hh
  have hsp : decide (a &&& 0x01 ≠ 0) = p.sessionPresent := by
    cases hs : p.sessionPresent <;> simp only [hs] at ha
    · have : a = 0 := UInt8.toNat_inj.mp (by simpa using ha)
      subst this; rfl
    · have : a = 1 := UInt8.toNat_inj.mp (by simpa using ha)
      subst this; rfl
  unfold decodeConnack
  rw [if_neg (by simp)]
  have h0 : byteAt ([a, b] ++ props) 0 = .ok a := rfl
  have h1 : byteAt ([a, b] ++ props) 1 = .ok b := rfl
  simp only [h0, h1, ok_bind, hsp, hb]
  unfold ConnAck.norm normProperties
  by_cases hv : version = .v5
  · rw [writeIf_pos hv] at hp
    have hd : ([a, b] ++ props).drop 2 = props := rfl
    obtain ⟨hlt, hdec⟩ := decodeTailProperties hp hd
    rw [readIf_pos ⟨hv, hlt⟩, decodeConnackProperties, hdec, if_pos hv]
    rfl
  · rw [readIf_neg (fun h => hv h.1), if_neg hv]
    rfl

theorem publish_flags (dup retain : Bool) (qos : QoS) :
    let flags := (dup.toNat <<< 3) ||| (qos.val <<< 1) ||| retain.toNat
    flags < 16 ∧ QoS.ofVal ((flags >>> 1) &&& 0x03) = .ok qos ∧
      decide (flags &&& 0x01 ≠ 0) = retain ∧ decide (flags &&& 0x08 ≠ 0) = dup := by
  cases dup <;> cases retain <;> cases qos <;> exact ⟨by decide, rfl, rfl, rfl⟩

theorem decodePublish_encodePublish {p : Publish} {version : Version} {bs : Bytes}
    (h : encodePublish p version = .ok bs) :
    ∃ flags body, flags < 16 ∧ buildPacket .publish flags body = .ok bs ∧
      decodePublish body flags version = .ok (p.norm version) := by
  obtain ⟨topic, ht, h⟩ := bind_eq_ok.mp h
  obtain ⟨pid, hi, h⟩ := bind_eq_ok.mp h
  obtain ⟨props, hp, h⟩ := bind_eq_ok.mp h
  obtain ⟨hf, hq, hr, hd⟩ := publish_flags p.dup p.retain p.qos
  refine ⟨_, _, hf, h, ?_⟩
  set body := topic ++ (pid ++ (props ++ p.payload)) with hbody
  have d0 : body.drop 0 = topic ++ (pid ++ (props ++ p.payload)) := rfl
  have d1 := drop_add_of_drop d0
  rw [Nat.zero_add] at d1
  have d2 := drop_add_of_drop d1
  have d3 := drop_add_of_drop d2
  have hpid : readIf (p.qos ≠ .atMostOnce) (decodePublishId body topic.length) =
      .ok (if p.qos = .atMostOnce then none else p.packetId, pid.length) := by
    unfold encodePublishId at hi
    unfold readIf decodePublishId
    by_cases h0 : p.qos = .atMostOnce
    · rw [if_neg (not_not.mpr h0)] at hi
      simp only [Except.ok.injEq] at hi
      subst hi
      simp [h0]
    · rw [if_pos h0] at hi
      cases hk : p.packetId with
      | none => simp [hk] at hi
      | some n =>
        simp only [hk] at hi
        have hl := packH_length hi
        obtain ⟨k, hk, hkn⟩ := unpackH_of_drop hi d1
        have hlen : body.length = topic.length + (pid.length + (props.length + p.payload.length)) := by
          simp [hbody]
        rw [if_pos h0, if_neg (by omega), hk]
        simp [h0, hkn, hl]
  unfold decodePublish
  simp only [hq, ok_bind, decodeStr_of_drop ht d0, hpid, decodeOptProperties_of_drop hp d2, d3, hr, hd]
  rfl

theorem decodePubAckVariant_encode {t : PacketType} {flags : Nat} {p : PubAck}
    {version : Version} {bs : Bytes} (h : encodePubAckVariant t flags p version = .ok bs) :
    ∃ body, buildPacket t flags body = .ok bs ∧
      decodePubAckVariant body version = .ok (p.norm version) := by
  unfold encodePubAckVariant at h
  by_cases hc : version = .v5 ∧ (p.reasonCode ≠ 0 ∨ p.properties.isSome)
  · rw [if_pos hc] at h
    obtain ⟨pid, hi, h⟩ := bind_eq_ok.mp h
    obtain ⟨rc, hr, h⟩ := bind_eq_ok.mp h
    obtain ⟨props, hp, h⟩ := bind_eq_ok.mp h
    refine ⟨_, h, ?_⟩
    set body := pid ++ (rc ++ props) with hbody
    have hl := packH_length hi
    have d0 : body.drop 0 = pid ++ (rc ++ props) := rfl
    have d2 := drop_add_of_drop d0
    rw [hl, Nat.zero_add] at d2
    obtain ⟨b, rfl, hb⟩ := packB_eq_ok hr
    have d3 : body.drop 3 = props := drop_succ_of_drop d2
    obtain ⟨k, hk, hkn⟩ := unpackH_of_drop hi d0
    obtain ⟨hlt, hdec⟩ := decodeTailProperties hp d3
    unfold decodePubAckVariant
    rw [if_neg (by omega), hk]
    simp only [ok_bind]
    rw [if_pos ⟨hc.1, by omega⟩, byteAt_of_drop d2]
    simp only [ok_bind]
    rw [readIf_pos hlt, decodePubackProperties, hdec]
    simp [PubAck.norm, normProperties, hc.1, hkn, hb]
  · rw [if_neg hc] at h
    obtain ⟨body, hi, h⟩ := bind_eq_ok.mp h
    refine ⟨body, h, ?_⟩
    have hl := packH_length hi
    have d0 : body.drop 0 = body ++ [] := by simp
    obtain ⟨k, hk, hkn⟩ := unpackH_of_drop hi d0
    unfold decodePubAckVariant
    rw [if_neg (by omega), hk]
    simp only [ok_bind]
    rw [if_neg (by omega), hkn]
    by_cases hv : version = .v5
    · have hz : ¬ (p.reasonCode ≠ 0 ∨ p.properties.isSome = true) := fun h => hc ⟨hv, h⟩
      rw [not_or, not_not] at hz
      have hn : p.properties = none := by simpa using hz.2
      simp [PubAck.norm, normProperties, hv, hz.1, hn, normProps]
    · simp [PubAck.norm, normProperties, hv]

theorem subscriptionOptions_read (sub : SubscriptionRequest) :
    let o := (UInt8.ofNat (subscriptionOptions sub .v5)).toNat
    QoS.ofVal (o &&& 0x03) = .ok sub.qos ∧
      RetainHandling.ofVal ((o >>> 4) &&& 0x03) = .ok sub.retainHandling ∧
      decide (o &&& 0x04 ≠ 0) = sub.noLocal ∧ decide (o &&& 0x08 ≠ 0) = sub.retainAsPublished := by
  obtain ⟨filter, qos, noLocal, rap, rh⟩ := sub
  cases qos <;> cases noLocal <;> cases rap <;> cases rh <;>
    simp [subscriptionOptions, QoS.val, QoS.ofVal, RetainHandling.val, RetainHandling.ofVal]

theorem subscriptionOf_options (sub : SubscriptionRequest) (version : Version) :
    subscriptionOf sub.topicFilter (UInt8.ofNat (subscriptionOptions sub version)).toNat version =
      .ok (sub.norm version) := by
  unfold subscriptionOf SubscriptionRequest.norm
  cases version with
  | v311 =>
    have hq : QoS.ofVal ((UInt8.ofNat (subscriptionOptions sub .v311)).toNat &&& 0x03) =
        .ok sub.qos := by
      cases h : sub.qos <;> simp [subscriptionOptions, h, QoS.val, QoS.ofVal]
    rw [hq, ok_bind, if_neg (by decide), if_neg (by decide)]
  | v5 =>
    obtain ⟨hq, hr, hn, ha⟩ := subscriptionOptions_read sub
    rw [hq, ok_bind, if_pos rfl, hr, ok_bind, hn, ha, if_pos rfl]

theorem decodeSubscriptions_encode {buf : Bytes} {version : Version}
    (subs : List SubscriptionRequest) :
    ∀ (pos : Nat) (bs : Bytes), encodeSubscriptions version subs = .ok bs →
      buf.drop pos = bs → pos ≤ buf.length →
      decodeSubscriptions buf version pos = .ok (subs.map (SubscriptionRequest.norm version)) := by
  induction subs with
  | nil =>
    intro pos bs h hd hle
    simp only [encodeSubscriptions, Except.ok.injEq] at h
    subst h
    have hl := congrArg List.length hd
    simp only [List.length_drop, List.length_nil] at hl
    rw [decodeSubscriptions, dif_neg (by omega)]
    rfl
  | cons sub subs ih =>
    intro pos bs h hd hle
    obtain ⟨filter, hf, h⟩ := bind_eq_ok.mp h
    obtain ⟨more, hm, h⟩ := bind_eq_ok.mp h
    simp only [Except.ok.injEq] at h
    subst h
    have hl := congrArg List.length hd
    simp only [List.length_drop, List.length_append, List.length_cons] at hl
    have d1 := drop_add_of_drop hd
    have d2 := drop_succ_of_drop d1
    have hrec := ih _ more hm d2 (by omega)
    rw [decodeSubscriptions, dif_pos (by omega), decodeStr_of_drop hf hd]
    simp only [ok_bind]
    rw [if_neg (by omega), byteAt_of_drop d1, ok_bind, subscriptionOf_options, ok_bind, hrec]
    rfl

theorem decodeSubscribe_encodeSubscribe {p : Subscribe} {version : Version} {bs : Bytes}
    (h : encodeSubscribe p version = .ok bs) :
    ∃ body, buildPacket .subscribe 0b0010 body = .ok bs ∧
      decodeSubscribe body version = .ok (p.norm version) := by
  obtain ⟨pid, hi, h⟩ := bind_eq_ok.mp h
  obtain ⟨props, hp, h⟩ := bind_eq_ok.mp h
  obtain ⟨subs, hs, h⟩ := bind_eq_ok.mp h
  refine ⟨_, h, ?_⟩
  set body := pid ++ (props ++ subs) with hbody
  have hl := packH_length hi
  have d0 : body.drop 0 = pid ++ (props ++ subs) := rfl
  have d2 := drop_add_of_drop d0
  rw [hl, Nat.zero_add] at d2
  have d3 := drop_add_of_drop d2
  have hlen : body.length = 2 + (props.length + subs.length) := by simp [hbody, hl]
  obtain ⟨k, hk, hkn⟩ := unpackH_of_drop hi d0
  unfold decodeSubscribe
  rw [if_neg (by omega), hk]
  simp only [ok_bind, decodeOptProperties_of_drop hp d2,
    decodeSubscriptions_encode p.subscriptions _ subs hs d3 (by omega), hkn]
  rfl

theorem codesFrom_bytesOf {buf bs : Bytes} {pos : Nat} {codes : List Int}
    (h : bytesOf codes = .ok bs) (hd : buf.drop pos = bs) : codesFrom buf pos = codes := by
  unfold codesFrom
  rw [hd, map_toNat_bytesOf h]

theorem decodeSuback_encodeSuback {p : SubAck} {version : Version} {bs : Bytes}
    (h : encodeSuback p version = .ok bs) :
    ∃ body, buildPacket .suback 0 body = .ok bs ∧
      decodeSuback body version = .ok (p.norm version) := by
  obtain ⟨pid, hi, h⟩ := bind_eq_ok.mp h
  obtain ⟨props, hp, h⟩ := bind_eq_ok.mp h
  obtain ⟨codes, hc, h⟩ := bind_eq_ok.mp h
  refine ⟨_, h, ?_⟩
  set body := pid ++ (props ++ codes) with hbody
  have hl := packH_length hi
  have d0 : body.drop 0 = pid ++ (props ++ codes) := rfl
  have d2 := drop_add_of_drop d0
  rw [hl, Nat.zero_add] at d2
  have d3 := drop_add_of_drop d2
  have hlen : body.length = 2 + (props.length + codes.length) := by simp [hbody, hl]
  obtain ⟨k, hk, hkn⟩ := unpackH_of_drop hi d0
  unfold decodeSuback
  rw [if_neg (by omega), hk]
  simp only [ok_bind, decodeOptProperties_of_drop hp d2, codesFrom_bytesOf hc d3, hkn]
  rfl

theorem decodeTopicFilters_encode {buf : Bytes} (topics : List String) :
    ∀ (pos : Nat) (bs : Bytes), encodeTopicFilters topics = .ok bs →
      buf.drop pos = bs → pos ≤ buf.length → decodeTopicFilters buf pos = .ok topics := by
  induction topics with
  | nil =>
    intro pos bs h hd hle
    simp only [encodeTopicFilters, Except.ok.injEq] at h
    subst h
    have hl := congrArg List.length hd
    simp only [List.length_drop, List.length_nil] at hl
    rw [decodeTopicFilters, dif_neg (by omega)]
  | cons topic topics ih =>
    intro pos bs h hd hle
    obtain ⟨filter, hf, h⟩ := bind_eq_ok.mp h
    obtain ⟨more, hm, h⟩ := bind_eq_ok.mp h
    simp only [Except.ok.injEq] at h
    subst h
    have hstr := decodeStr_of_drop hf hd
    have h2 := two_le_of_decodeStr hstr
    have hl := congrArg List.length hd
    simp only [List.length_drop, List.length_append] at hl
    have hrec := ih _ more hm (drop_add_of_drop hd) (by omega)
    rw [decodeTopicFilters, dif_pos (by omega)]
    split
    · next e he => rw [hstr] at he; cases he
    · next f n he =>
      rw [hstr] at he
      simp only [Except.ok.injEq, Prod.mk.injEq] at he
      rw [← he.1, ← he.2, hrec]
      rfl

theorem decodeUnsubscribe_encodeUnsubscribe {p : Unsubscribe} {version : Version} {bs : Bytes}
    (h : encodeUnsubscribe p version = .ok bs) :
    ∃ body, buildPacket .unsubscribe 0b0010 body = .ok bs ∧
      decodeUnsubscribe body version = .ok (p.norm version) := by
  obtain ⟨pid, hi, h⟩ := bind_eq_ok.mp h
  obtain ⟨props, hp, h⟩ := bind_eq_ok.mp h
  obtain ⟨topics, ht, h⟩ := bind_eq_ok.mp h
  refine ⟨_, h, ?_⟩
  set body := pid ++ (props ++ topics) with hbody
  have hl := packH_length hi
  have d0 : body.drop 0 = pid ++ (props ++ topics) := rfl
  have d2 := drop_add_of_drop d0
  rw [hl, Nat.zero_add] at d2
  have d3 := drop_add_of_drop d2
  have hlen : body.length = 2 + (props.length + topics.length) := by simp [hbody, hl]
  obtain ⟨k, hk, hkn⟩ := unpackH_of_drop hi d0
  unfold decodeUnsubscribe
  rw [if_neg (by omega), hk]
  simp only [ok_bind, decodeOptProperties_of_drop hp d2,
    decodeTopicFilters_encode p.topicFilters _ topics ht d3 (by omega), hkn]
  rfl

theorem decodeUnsuback_encodeUnsuback {p : UnsubAck} {version : Version} {bs : Bytes}
    (h : encodeUnsuback p version = .ok bs) :
    ∃ body, buildPacket .unsuback 0 body = .ok bs ∧
      decodeUnsuback body version = .ok (p.norm version) := by
  unfold encodeUnsuback at h
  unfold decodeUnsuback UnsubAck.norm normProperties
  by_cases hv : version = .v5
  · rw [if_pos hv] at h
    obtain ⟨pid, hi, h⟩ := bind_eq_ok.mp h
    obtain ⟨props, hp, h⟩ := bind_eq_ok.mp h
    obtain ⟨codes, hc, h⟩ := bind_eq_ok.mp h
    refine ⟨_, h, ?_⟩
    set body := pid ++ (props ++ codes) with hbody
    have hl := packH_length hi
    have d0 : body.drop 0 = pid ++ (props ++ codes) := rfl
    have d2 := drop_add_of_drop d0
    rw [hl, Nat.zero_add] at d2
    have d3 := drop_add_of_drop d2
    have hlen : body.length = 2 + (props.length + codes.length) := by simp [hbody, hl]
    obtain ⟨k, hk, hkn⟩ := unpackH_of_drop hi d0
    rw [if_neg (by omega), hk]
    simp only [ok_bind]
    rw [if_pos hv, if_pos hv, if_pos hv, decodeUnsubackProperties,
      decodeProperties_of_drop hp d2]
    simp only [ok_bind, codesFrom_bytesOf hc d3, hkn]
  · rw [if_neg hv] at h
    obtain ⟨body, hi, h⟩ := bind_eq_ok.mp h
    refine ⟨body, h, ?_⟩
    have hl := packH_length hi
    have d0 : body.drop 0 = body ++ [] := by simp
    obtain ⟨k, hk, hkn⟩ := unpackH_of_drop hi d0
    rw [if_neg (by omega), hk]
    simp only [ok_bind]
    rw [if_neg hv, if_neg hv, if_neg hv, hkn]

theorem decodeDisconnect_encodeDisconnect {p : Disconnect} {version : Version} {bs : Bytes}
    (h : encodeDisconnect p version = .ok bs) :
    ∃ body, buildPacket .disconnect 0 body = .ok bs ∧
      decodeDisconnect body version = .ok (p.norm version) := by
  unfold encodeDisconnect at h
  unfold decodeDisconnect Disconnect.norm normProperties
  by_cases hc : version = .v5 ∧ (p.reasonCode ≠ 0 ∨ p.properties.isSome)
  · rw [if_pos hc] at h
    obtain ⟨rc, hr, h⟩ := bind_eq_ok.mp h
    obtain ⟨props, hp, h⟩ := bind_eq_ok.mp h
    refine ⟨_, h, ?_⟩
    obtain ⟨b, rfl, hb⟩ := bytesOf_singleton hr
    have h0 : byteAt ([b] ++ props) 0 = .ok b := rfl
    have hd : ([b] ++ props).drop 1 = props := rfl
    obtain ⟨hlt, hdec⟩ := decodeTailProperties hp hd
    rw [if_pos ⟨hc.1, by simp⟩, h0]
    simp only [ok_bind]
    rw [readIf_pos hlt, decodeDisconnectProperties, hdec]
    simp [hc.1, hb]
  · rw [if_neg hc] at h
    refine ⟨[], h, ?_⟩
    rw [if_neg (by simp)]
    by_cases hv : version = .v5
    · have hz : ¬ (p.reasonCode ≠ 0 ∨ p.properties.isSome = true) := fun h => hc ⟨hv, h⟩
      rw [not_or, not_not] at hz
      have hn : p.properties = none := by simpa using hz.2
      simp [hv, hz.1, hn, normProps]
    · simp [hv]

theorem decodeAuth_encodeAuth {p : Auth} {bs : Bytes} (h : encodeAuth p = .ok bs) :
    ∃ body, buildPacket .auth 0 body = .ok bs ∧ decodeAuth body = .ok p.norm := by
  obtain ⟨rc, hr, h⟩ := bind_eq_ok.mp h
  obtain ⟨props, hp, h⟩ := bind_eq_ok.mp h
  refine ⟨_, h, ?_⟩
  obtain ⟨b, rfl, hb⟩ := bytesOf_singleton hr
  have h0 : byteAt ([b] ++ props) 0 = .ok b := rfl
  have hd : ([b] ++ props).drop 1 = props := rfl
  obtain ⟨hlt, hdec⟩ := decodeTailProperties hp hd
  unfold decodeAuth
  rw [if_neg (by simp), h0]
  simp only [ok_bind]
  rw [readIf_pos hlt, decodeAuthProperties, hdec]
  simp [Auth.norm, hb]

/-! ## CONNECT -/

/-- What `_decode_connect` reads from the flag byte that `_encode_connect` wrote. -/
theorem connectFlags_read (p : Connect) :
    let flags := (UInt8.ofNat (connectFlags p)).toNat
    decide (flags &&& 0x02 ≠ 0) = p.cleanSession ∧
    (flags &&& 0x04 ≠ 0 ↔ p.will.isSome) ∧
    (flags &&& 0x80 ≠ 0 ↔ p.username.isSome) ∧
    (flags &&& 0x40 ≠ 0 ↔ p.password.isSome) ∧
    QoS.ofVal ((flags >>> 3) &&& 0x03) =
      .ok (match p.will with | some w => w.qos | none => .atMostOnce) ∧
    ∀ w, p.will = some w → decide (flags &&& 0x20 ≠ 0) = w.retain := by
  obtain ⟨clientId, clean, keepalive, username, password, will, props⟩ := p
  cases will with
  | none =>
    cases clean <;> cases username <;> cases password <;> simp [connectFlags, QoS.ofVal]
  | some w =>
    obtain ⟨topic, payload, qos, retain, wprops⟩ := w
    cases clean <;> cases username <;> cases password <;> cases qos <;> cases retain <;>
      simp [connectFlags, QoS.val, QoS.ofVal]

/-- A part written by `writeSome` is read back when its flag says whether it is there. -/
theorem readIf_writeSome {α β : Type} {write : α → Except PyError Bytes} {f : α → β} {o : Option α}
    {cond : Prop} [Decidable cond] {read : Except PyError (β × Nat)} {bs : Bytes}
    (hc : cond ↔ o.isSome) (h : writeSome write o = .ok bs)
    (hr : ∀ a, o = some a → write a = .ok bs → read = .ok (f a, bs.length)) :
    readIf cond (some? read) = .ok (o.map f, bs.length) := by
  cases o with
  | none =>
    rw [readIf_neg (by simp [hc])]
    simp only [writeSome, Except.ok.injEq] at h
    subst h
    rfl
  | some a =>
    rw [readIf_pos (by simp [hc])]
    unfold some?
    rw [hr a rfl h]
    rfl

theorem decodeWill_of_drop {w : Will} {version : Version} {buf bs rest : Bytes} {pos : Nat}
    {flags : Nat} (hr : decide (flags &&& 0x20 ≠ 0) = w.retain)
    (h : encodeWill version w = .ok bs) (hd : buf.drop pos = bs ++ rest) :
    decodeWill buf pos flags version w.qos = .ok (w.norm version, bs.length) := by
  obtain ⟨props, hp, h⟩ := bind_eq_ok.mp h
  obtain ⟨topic, ht, h⟩ := bind_eq_ok.mp h
  obtain ⟨payload, hl, h⟩ := bind_eq_ok.mp h
  simp only [Except.ok.injEq] at h
  subst h
  rw [List.append_assoc, List.append_assoc] at hd
  have d1 := drop_add_of_drop hd
  have d2 := drop_add_of_drop d1
  unfold decodeWill
  simp only [decodeOptProperties_of_drop hp hd, ok_bind, decodeStr_of_drop ht d1,
    decodeBytesField_of_drop hl d2, hr, List.length_append]
  rw [Nat.add_assoc]
  rfl

theorem decodeConnect_encodeConnect {p : Connect} {version : Version} {bs : Bytes}
    (h : encodeConnect p version = .ok bs) :
    ∃ body, buildPacket .connect 0 body = .ok bs ∧
      decodeConnect body = .ok (p.norm version) := by
  obtain ⟨name, hname, h⟩ := bind_eq_ok.mp h
  obtain ⟨keepalive, hka, h⟩ := bind_eq_ok.mp h
  obtain ⟨props, hp, h⟩ := bind_eq_ok.mp h
  obtain ⟨clientId, hci, h⟩ := bind_eq_ok.mp h
  obtain ⟨will, hw, h⟩ := bind_eq_ok.mp h
  obtain ⟨username, hu, h⟩ := bind_eq_ok.mp h
  obtain ⟨password, hpw, h⟩ := bind_eq_ok.mp h
  obtain ⟨hclean, hwill, huser, hpass, hqos, hretain⟩ := connectFlags_read p
  refine ⟨_, h, ?_⟩
  set flags := UInt8.ofNat (connectFlags p) with hflags
  set level : UInt8 := if version = .v5 then 0x05 else 0x04 with hlevel
  set body := name ++ ([level, flags] ++ (keepalive ++ (props ++
      (clientId ++ (will ++ (username ++ password)))))) with hbody
  -- the offset of each part, in wire order
  have d0 : body.drop 0 = name ++ ([level, flags] ++ (keepalive ++ (props ++
      (clientId ++ (will ++ (username ++ password)))))) := rfl
  have d1 := drop_add_of_drop d0
  rw [Nat.zero_add] at d1
  have d2 : body.drop (name.length + 1) = flags :: (keepalive ++ (props ++
      (clientId ++ (will ++ (username ++ password))))) := drop_succ_of_drop d1
  have d3 : body.drop (name.length + 2) = keepalive ++ (props ++
      (clientId ++ (will ++ (username ++ password)))) := drop_succ_of_drop d2
  have d4 := drop_add_of_drop d3
  rw [packH_length hka, Nat.add_assoc] at d4
  have d5 := drop_add_of_drop d4
  have d6 := drop_add_of_drop d5
  have d7 := drop_add_of_drop d6
  have d8 : body.drop (name.length + (2 + 2) + props.length + clientId.length + will.length +
      username.length) = password ++ [] := by
    rw [List.append_nil]; exact drop_add_of_drop d7
  have hlv : ¬ (level ≠ 0x04 ∧ level ≠ 0x05) := by
    rw [hlevel]; cases version <;> decide
  have hver : (if level = 0x05 then Version.v5 else Version.v311) = version := by
    rw [hlevel]; cases version <;> decide
  obtain ⟨k, hk, hkn⟩ := unpackH_of_drop hka d3
  have hwillr : readIf (flags.toNat &&& 0x04 ≠ 0) (some? (decodeWill body
      (name.length + (2 + 2) + props.length + clientId.length) flags.toNat version
      (match p.will with | some w => w.qos | none => .atMostOnce))) =
      .ok (p.will.map (Will.norm version), will.length) := by
    refine readIf_writeSome hwill hw (fun w hpw hwb => ?_)
    rw [hpw]
    exact decodeWill_of_drop (hretain w hpw) hwb d6
  have huserr := readIf_writeSome (f := id) huser hu
    (fun s _ hs => decodeStr_of_drop hs d7)
  have hpassr := readIf_writeSome (f := id) hpass hpw
    (fun b _ hb => decodeBytesField_of_drop hb d8)
  unfold decodeConnect
  rw [decodeStr_of_drop hname d0]
  simp only [ok_bind, ne_eq, not_true_eq_false, if_false, byteAt_of_drop d1, if_neg hlv, hver,
    byteAt_of_drop d2, hqos, hk, decodeOptProperties_of_drop hp d4, decodeStr_of_drop hci d5,
    hwillr, huserr, hpassr]
  simp [Connect.norm, hclean, hkn]

/-! ## The round trip -/

/-- Every encoder builds one packet, from a body that decodes to the normalised packet. -/
theorem encode_eq_buildPacket {version : Version} {p : Packet} {bs : Bytes}
    (h : encode p version = .ok bs) :
    ∃ t flags body, flags < 16 ∧ buildPacket t flags body = .ok bs ∧
      decodeBody t flags body version = .ok (p.norm version) := by
  cases p with
  | connect p =>
    obtain ⟨body, hb, hd⟩ := decodeConnect_encodeConnect h
    exact ⟨.connect, 0, body, by decide, hb, by simp [decodeBody, hd, Packet.norm]⟩
  | connack p =>
    obtain ⟨body, hb, hd⟩ := decodeConnack_encodeConnack h
    exact ⟨.connack, 0, body, by decide, hb, by simp [decodeBody, hd, Packet.norm]⟩
  | publish p =>
    obtain ⟨flags, body, hf, hb, hd⟩ := decodePublish_encodePublish h
    exact ⟨.publish, flags, body, hf, hb, by simp [decodeBody, hd, Packet.norm]⟩
  | puback p =>
    obtain ⟨body, hb, hd⟩ := decodePubAckVariant_encode h
    exact ⟨.puback, 0, body, by decide, hb, by simp [decodeBody, hd, Packet.norm]⟩
  | pubrec p =>
    obtain ⟨body, hb, hd⟩ := decodePubAckVariant_encode h
    exact ⟨.pubrec, 0, body, by decide, hb, by simp [decodeBody, hd, Packet.norm]⟩
  | pubrel p =>
    obtain ⟨body, hb, hd⟩ := decodePubAckVariant_encode h
    exact ⟨.pubrel, 0b0010, body, by decide, hb, by simp [decodeBody, hd, Packet.norm]⟩
  | pubcomp p =>
    obtain ⟨body, hb, hd⟩ := decodePubAckVariant_encode h
    exact ⟨.pubcomp, 0, body, by decide, hb, by simp [decodeBody, hd, Packet.norm]⟩
  | subscribe p =>
    obtain ⟨body, hb, hd⟩ := decodeSubscribe_encodeSubscribe h
    exact ⟨.subscribe, 0b0010, body, by decide, hb, by simp [decodeBody, hd, Packet.norm]⟩
  | suback p =>
    obtain ⟨body, hb, hd⟩ := decodeSuback_encodeSuback h
    exact ⟨.suback, 0, body, by decide, hb, by simp [decodeBody, hd, Packet.norm]⟩
  | unsubscribe p =>
    obtain ⟨body, hb, hd⟩ := decodeUnsubscribe_encodeUnsubscribe h
    exact ⟨.unsubscribe, 0b0010, body, by decide, hb, by simp [decodeBody, hd, Packet.norm]⟩
  | unsuback p =>
    obtain ⟨body, hb, hd⟩ := decodeUnsuback_encodeUnsuback h
    exact ⟨.unsuback, 0, body, by decide, hb, by simp [decodeBody, hd, Packet.norm]⟩
  | pingreq => exact ⟨.pingreq, 0, [], by decide, h, rfl⟩
  | pingresp => exact ⟨.pingresp, 0, [], by decide, h, rfl⟩
  | disconnect p =>
    obtain ⟨body, hb, hd⟩ := decodeDisconnect_encodeDisconnect h
    exact ⟨.disconnect, 0, body, by decide, hb, by simp [decodeBody, hd, Packet.norm]⟩
  | auth p =>
    obtain ⟨body, hb, hd⟩ := decodeAuth_encodeAuth h
    exact ⟨.auth, 0, body, by decide, hb, by simp [decodeBody, hd, Packet.norm]⟩

/-- **Round trip.** For both versions and all fifteen packet types, what `encode` produced,
    followed by any bytes, decodes to the normalised packet and consumes exactly the
    encoding. -/
theorem decode_encode (version : Version) (p : Packet) (bs rest : Bytes)
    (h : encode p version = .ok bs) :
    decode (bs ++ rest) version = .ok (some (p.norm version, bs.length)) := by
  obtain ⟨t, flags, body, hf, hb, hd⟩ := encode_eq_buildPacket h
  rw [decode_buildPacket hb hf rest version, hd, ok_bind]

/-- A QoS 1 PUBLISH with properties. -/
def samplePublish : Publish :=
  ⟨"a/b", [1, 2], .atLeastOnce, false, false, some 7,
    some { contentType := some "t", userProperties := [("k", "v")] }⟩

theorem decode_encode_samplePublish :
    decode ([50, 21, 0, 3, 97, 47, 98, 0, 7, 11, 3, 0, 1, 116, 38, 0, 1, 107, 0, 1, 118, 1, 2] ++
      [192, 0]) .v5 = .ok (some ((Packet.publish samplePublish).norm .v5, 23)) :=
  decode_encode .v5 (.publish samplePublish) _ [192, 0] (by decide +kernel)

end Zmqtt
