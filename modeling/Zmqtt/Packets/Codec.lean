/-
  The I/O-free codec (`_internal/packets/codec.py`): `encode` and `decode` of the
  fifteen packet types for MQTT 3.1.1 and 5.0.

  An encoder returns the bytes of one packet or the exception it raises. A body
  decoder takes the body of the packet (the bytes after the fixed header).
  `decode` returns `none` while the buffer holds less than one packet, else the
  packet and the number of bytes it takes.
-/
import Zmqtt.Packets.Properties

namespace Zmqtt

/-! ## Optional parts -/

/-- A part of a body that is written only when `cond` holds. -/
def writeIf (cond : Prop) [Decidable cond] (part : Except PyError Bytes) : Except PyError Bytes :=
  if cond then part else .ok []

/-- A part of a body that is read only when `cond` holds, and the bytes it takes. -/
def readIf {α : Type} (cond : Prop) [Decidable cond] (part : Except PyError (Option α × Nat)) :
    Except PyError (Option α × Nat) :=
  if cond then part else .ok (none, 0)

/-- A part of a body that is written only when it is given. -/
def writeSome {α : Type} (write : α → Except PyError Bytes) : Option α → Except PyError Bytes
  | none => .ok []
  | some a => write a

/-- A part that is present once it is read. -/
def some? {α : Type} (part : Except PyError (α × Nat)) : Except PyError (Option α × Nat) := do
  let (a, n) ← part
  .ok (some a, n)

section Optional

variable {α : Type} {cond : Prop} [Decidable cond] {part : Except PyError (Option α × Nat)}
  {bytes : Except PyError Bytes}

theorem writeIf_pos (h : cond) : writeIf cond bytes = bytes := if_pos h

theorem writeIf_neg (h : ¬ cond) : writeIf cond bytes = .ok [] := if_neg h

theorem readIf_pos (h : cond) : readIf cond part = part := if_pos h

theorem readIf_neg (h : ¬ cond) : readIf cond part = .ok (none, 0) := if_neg h

end Optional

/-! ## Encoding -/

/-- `_build_packet`. -/
def buildPacket (packetType : PacketType) (flags : Nat) (body : Bytes) : Except PyError Bytes := do
  let firstByte := (packetType.val <<< 4) ||| (flags &&& 0x0F)
  let len ← encodeVarint body.length
  .ok (UInt8.ofNat firstByte :: (len ++ body))

/-- `_packet_id_only`. -/
def packetIdOnly (packetType : PacketType) (flags : Nat) (packetId : Int) :
    Except PyError Bytes := do
  let body ← packH packetId
  buildPacket packetType flags body

/-- The flag byte of CONNECT. -/
def connectFlags (packet : Connect) : Nat :=
  (if packet.cleanSession then 0x02 else 0) |||
  (match packet.will with
    | some will => 0x04 ||| (will.qos.val <<< 3) ||| (if will.retain then 0x20 else 0)
    | none => 0) |||
  (if packet.username.isSome then 0x80 else 0) |||
  (if packet.password.isSome then 0x40 else 0)

/-- The will in the payload of CONNECT. -/
def encodeWill (version : Version) (will : Will) : Except PyError Bytes := do
  let props ← writeIf (version = .v5) (encodeWillProperties will.properties)
  let topic ← encodeStr will.topic
  let payload ← encodeBytesField will.payload
  .ok (props ++ (topic ++ payload))

/-- `_encode_connect`. -/
def encodeConnect (packet : Connect) (version : Version) : Except PyError Bytes := do
  let protoLevel : UInt8 := if version = .v5 then 0x05 else 0x04
  let name ← encodeStr "MQTT"
  let keepalive ← packH packet.keepalive
  let props ← writeIf (version = .v5) (encodeConnectProperties packet.properties)
  let clientId ← encodeStr packet.clientId
  let will ← writeSome (encodeWill version) packet.will
  let username ← writeSome encodeStr packet.username
  let password ← writeSome encodeBytesField packet.password
  buildPacket .connect 0
    (name ++ ([protoLevel, UInt8.ofNat (connectFlags packet)] ++ (keepalive ++ (props ++
      (clientId ++ (will ++ (username ++ password)))))))

/-- `_encode_connack`. -/
def encodeConnack (packet : ConnAck) (version : Version) : Except PyError Bytes := do
  let head ← bytesOf [if packet.sessionPresent then 0x01 else 0x00, packet.returnCode]
  let props ← writeIf (version = .v5) (encodeConnackProperties packet.properties)
  buildPacket .connack 0 (head ++ props)

/-- The packet id of a PUBLISH above QoS 0. -/
def encodePublishId (packet : Publish) : Except PyError Bytes :=
  if packet.qos ≠ .atMostOnce then
    match packet.packetId with
    | none => .error (.valueError "Cannot publish without packet id")
    | some pid => packH pid
  else .ok []

/-- `_encode_publish`. -/
def encodePublish (packet : Publish) (version : Version) : Except PyError Bytes := do
  let flags := (packet.dup.toNat <<< 3) ||| (packet.qos.val <<< 1) ||| packet.retain.toNat
  let topic ← encodeStr packet.topic
  let pid ← encodePublishId packet
  let props ← writeIf (version = .v5) (encodePublishProperties packet.properties)
  buildPacket .publish flags (topic ++ (pid ++ (props ++ packet.payload)))

/-- `_encode_pub_ack_variant`. -/
def encodePubAckVariant (packetType : PacketType) (flags : Nat) (packet : PubAck)
    (version : Version) : Except PyError Bytes := do
  if version = .v5 ∧ (packet.reasonCode ≠ 0 ∨ packet.properties.isSome) then
    let pid ← packH packet.packetId
    let rc ← packB packet.reasonCode
    let props ← encodePubackProperties packet.properties
    buildPacket packetType flags (pid ++ (rc ++ props))
  else packetIdOnly packetType flags packet.packetId

/-- The options byte of one subscription. -/
def subscriptionOptions (sub : SubscriptionRequest) (version : Version) : Nat :=
  if version = .v5 then
    sub.qos.val ||| (sub.noLocal.toNat <<< 2) ||| (sub.retainAsPublished.toNat <<< 3) |||
      (sub.retainHandling.val <<< 4)
  else sub.qos.val

/-- The `for sub in packet.subscriptions` loop. -/
def encodeSubscriptions (version : Version) : List SubscriptionRequest → Except PyError Bytes
  | [] => .ok []
  | sub :: subs => do
      let filter ← encodeStr sub.topicFilter
      let rest ← encodeSubscriptions version subs
      .ok (filter ++ (UInt8.ofNat (subscriptionOptions sub version) :: rest))

/-- `_encode_subscribe`. -/
def encodeSubscribe (packet : Subscribe) (version : Version) : Except PyError Bytes := do
  let pid ← packH packet.packetId
  let props ← writeIf (version = .v5) (encodeSubscribeProperties packet.properties)
  let subs ← encodeSubscriptions version packet.subscriptions
  buildPacket .subscribe 0b0010 (pid ++ (props ++ subs))

/-- `_encode_suback`. -/
def encodeSuback (packet : SubAck) (version : Version) : Except PyError Bytes := do
  let pid ← packH packet.packetId
  let props ← writeIf (version = .v5) (encodeSubackProperties packet.properties)
  let codes ← bytesOf packet.returnCodes
  buildPacket .suback 0 (pid ++ (props ++ codes))

/-- The `for topic in packet.topic_filters` loop. -/
def encodeTopicFilters : List String → Except PyError Bytes
  | [] => .ok []
  | topic :: topics => do
      let filter ← encodeStr topic
      let rest ← encodeTopicFilters topics
      .ok (filter ++ rest)

/-- `_encode_unsubscribe`. -/
def encodeUnsubscribe (packet : Unsubscribe) (version : Version) : Except PyError Bytes := do
  let pid ← packH packet.packetId
  let props ← writeIf (version = .v5) (encodeUnsubscribeProperties packet.properties)
  let topics ← encodeTopicFilters packet.topicFilters
  buildPacket .unsubscribe 0b0010 (pid ++ (props ++ topics))

/-- `_encode_unsuback`. -/
def encodeUnsuback (packet : UnsubAck) (version : Version) : Except PyError Bytes := do
  if version = .v5 then
    let pid ← packH packet.packetId
    let props ← encodeUnsubackProperties packet.properties
    let codes ← bytesOf packet.reasonCodes
    buildPacket .unsuback 0 (pid ++ (props ++ codes))
  else packetIdOnly .unsuback 0 packet.packetId

/-- `_encode_disconnect`. -/
def encodeDisconnect (packet : Disconnect) (version : Version) : Except PyError Bytes := do
  if version = .v5 ∧ (packet.reasonCode ≠ 0 ∨ packet.properties.isSome) then
    let rc ← bytesOf [packet.reasonCode]
    let props ← encodeDisconnectProperties packet.properties
    buildPacket .disconnect 0 (rc ++ props)
  else buildPacket .disconnect 0 []

/-- The AUTH case of `encode`. -/
def encodeAuth (packet : Auth) : Except PyError Bytes := do
  let rc ← bytesOf [packet.reasonCode]
  let props ← encodeAuthProperties packet.properties
  buildPacket .auth 0 (rc ++ props)

/-- `encode`. -/
def encode (packet : Packet) (version : Version) : Except PyError Bytes :=
  match packet with
  | .connect p => encodeConnect p version
  | .connack p => encodeConnack p version
  | .publish p => encodePublish p version
  | .puback p => encodePubAckVariant .puback 0 p version
  | .pubrec p => encodePubAckVariant .pubrec 0 p version
  | .pubrel p => encodePubAckVariant .pubrel 0b0010 p version
  | .pubcomp p => encodePubAckVariant .pubcomp 0 p version
  | .subscribe p => encodeSubscribe p version
  | .suback p => encodeSuback p version
  | .unsubscribe p => encodeUnsubscribe p version
  | .unsuback p => encodeUnsuback p version
  | .pingreq => buildPacket .pingreq 0 []
  | .pingresp => buildPacket .pingresp 0 []
  | .disconnect p => encodeDisconnect p version
  | .auth p => encodeAuth p

/-! ## Decoding -/

/-- The will of `_decode_connect` at `pos`, and the bytes it takes. -/
def decodeWill (buf : Bytes) (pos : Nat) (flags : Nat) (ver : Version) (willQos : QoS) :
    Except PyError (Will × Nat) := do
  let (props, n) ← readIf (ver = .v5) (decodeWillProperties buf pos)
  let (topic, n1) ← decodeStr buf (pos + n)
  let (payload, n2) ← decodeBytesField buf (pos + n + n1)
  .ok (⟨topic, payload, willQos, decide (flags &&& 0x20 ≠ 0), props⟩, n + n1 + n2)

/-- `_decode_connect`; the version is read from the protocol level. -/
def decodeConnect (buf : Bytes) : Except PyError Connect := do
  let (protoName, pos) ← decodeStr buf 0
  if protoName ≠ "MQTT" then
    .error (.valueErrorRepr "Invalid protocol name: " protoName)
  else
    let protoLevel ← byteAt buf pos
    if protoLevel ≠ 0x04 ∧ protoLevel ≠ 0x05 then
      .error (.valueError ("Unsupported protocol level: " ++ toString protoLevel.toNat))
    else
      let ver : Version := if protoLevel = 0x05 then .v5 else .v311
      let flags := (← byteAt buf (pos + 1)).toNat
      let willQos ← QoS.ofVal ((flags >>> 3) &&& 0x03)
      let keepalive ← unpackH buf (pos + 2)
      let pos := pos + 4
      let (props, n) ← readIf (ver = .v5) (decodeConnectProperties buf pos)
      let pos := pos + n
      let (clientId, n) ← decodeStr buf pos
      let pos := pos + n
      let (will, n) ← readIf (flags &&& 0x04 ≠ 0) (some? (decodeWill buf pos flags ver willQos))
      let pos := pos + n
      let (username, n) ← readIf (flags &&& 0x80 ≠ 0) (some? (decodeStr buf pos))
      let pos := pos + n
      let (password, _) ← readIf (flags &&& 0x40 ≠ 0) (some? (decodeBytesField buf pos))
      .ok ⟨clientId, decide (flags &&& 0x02 ≠ 0), keepalive, username, password, will, props⟩

/-- `_decode_connack`. -/
def decodeConnack (buf : Bytes) (version : Version) : Except PyError ConnAck := do
  if buf.length < 2 then .error (.valueError "CONNACK too short")
  else
    let sp ← byteAt buf 0
    let rc ← byteAt buf 1
    let (props, _) ← readIf (version = .v5 ∧ buf.length > 2) (decodeConnackProperties buf 2)
    .ok ⟨decide (sp &&& 0x01 ≠ 0), rc.toNat, props⟩

/-- The packet id of a PUBLISH above QoS 0, and its two bytes. -/
def decodePublishId (buf : Bytes) (pos : Nat) : Except PyError (Option Int × Nat) := do
  if pos + 2 > buf.length then .error (.valueError "PUBLISH too short for packet ID")
  else
    let pid ← unpackH buf pos
    .ok (some (pid : Int), 2)

/-- `_decode_publish`. -/
def decodePublish (buf : Bytes) (flags : Nat) (version : Version) : Except PyError Publish := do
  let qos ← QoS.ofVal ((flags >>> 1) &&& 0x03)
  let (topic, pos) ← decodeStr buf 0
  let (packetId, n) ← readIf (qos ≠ .atMostOnce) (decodePublishId buf pos)
  let pos := pos + n
  let (props, n) ← readIf (version = .v5) (decodePublishProperties buf pos)
  let pos := pos + n
  .ok ⟨topic, buf.drop pos, qos, decide (flags &&& 0x01 ≠ 0), decide (flags &&& 0x08 ≠ 0),
    packetId, props⟩

/-- `_decode_pub_ack_variant`. -/
def decodePubAckVariant (buf : Bytes) (version : Version) : Except PyError PubAck := do
  if buf.length < 2 then .error (.valueError "Packet too short for packet ID")
  else
    let packetId ← unpackH buf 0
    if version = .v5 ∧ buf.length > 2 then
      let rc ← byteAt buf 2
      let (props, _) ← readIf (buf.length > 3) (decodePubackProperties buf 3)
      .ok ⟨packetId, rc.toNat, props⟩
    else .ok ⟨packetId, 0, none⟩

/-- The subscription described by an options byte. -/
def subscriptionOf (topicFilter : String) (options : Nat) (version : Version) :
    Except PyError SubscriptionRequest := do
  let qos ← QoS.ofVal (options &&& 0x03)
  if version = .v5 then
    let rh ← RetainHandling.ofVal ((options >>> 4) &&& 0x03)
    .ok ⟨topicFilter, qos, decide (options &&& 0x04 ≠ 0), decide (options &&& 0x08 ≠ 0), rh⟩
  else .ok { topicFilter, qos }

/-- The `while pos < len(buf)` loop of `_decode_subscribe`. -/
def decodeSubscriptions (buf : Bytes) (version : Version) (pos : Nat) :
    Except PyError (List SubscriptionRequest) :=
  if _h : pos < buf.length then do
    let (filter, n) ← decodeStr buf pos
    if pos + n ≥ buf.length then .error (.valueError "SUBSCRIBE missing options byte")
    else
      let options ← byteAt buf (pos + n)
      let sub ← subscriptionOf filter options.toNat version
      let subs ← decodeSubscriptions buf version (pos + n + 1)
      .ok (sub :: subs)
  else .ok []
termination_by buf.length - pos
decreasing_by omega

/-- `_decode_subscribe`. -/
def decodeSubscribe (buf : Bytes) (version : Version) : Except PyError Subscribe := do
  if buf.length < 2 then .error (.valueError "SUBSCRIBE too short")
  else
    let packetId ← unpackH buf 0
    let (props, n) ← readIf (version = .v5) (decodeSubscribeProperties buf 2)
    let subs ← decodeSubscriptions buf version (2 + n)
    .ok ⟨packetId, subs, props⟩

/-- `tuple(buf[pos:])`. -/
def codesFrom (buf : Bytes) (pos : Nat) : List Int := (buf.drop pos).map fun b => (b.toNat : Int)

/-- `_decode_suback`. -/
def decodeSuback (buf : Bytes) (version : Version) : Except PyError SubAck := do
  if buf.length < 2 then .error (.valueError "SUBACK too short")
  else
    let packetId ← unpackH buf 0
    let (props, n) ← readIf (version = .v5) (decodeSubackProperties buf 2)
    .ok ⟨packetId, codesFrom buf (2 + n), props⟩

/-- The `while pos < len(buf)` loop of `_decode_unsubscribe`. A string takes at least its
    two length bytes, so `pos` grows. -/
def decodeTopicFilters (buf : Bytes) (pos : Nat) : Except PyError (List String) :=
  if _h : pos < buf.length then
    match _hs : decodeStr buf pos with
    | .error e => .error e
    | .ok (filter, n) => do
        let filters ← decodeTopicFilters buf (pos + n)
        .ok (filter :: filters)
  else .ok []
termination_by buf.length - pos
decreasing_by
  have := two_le_of_decodeStr _hs
  omega

/-- `_decode_unsubscribe`. -/
def decodeUnsubscribe (buf : Bytes) (version : Version) : Except PyError Unsubscribe := do
  if buf.length < 2 then .error (.valueError "UNSUBSCRIBE too short")
  else
    let packetId ← unpackH buf 0
    let (props, n) ← readIf (version = .v5) (decodeUnsubscribeProperties buf 2)
    let filters ← decodeTopicFilters buf (2 + n)
    .ok ⟨packetId, filters, props⟩

/-- `_decode_unsuback`. -/
def decodeUnsuback (buf : Bytes) (version : Version) : Except PyError UnsubAck := do
  if buf.length < 2 then .error (.valueError "UNSUBACK too short")
  else
    let packetId ← unpackH buf 0
    if version = .v5 then
      let (props, n) ← decodeUnsubackProperties buf 2
      .ok ⟨packetId, codesFrom buf (2 + n), props⟩
    else .ok { packetId }

/-- `_decode_disconnect`. -/
def decodeDisconnect (buf : Bytes) (version : Version) : Except PyError Disconnect := do
  if version = .v5 ∧ buf.length ≥ 1 then
    let rc ← byteAt buf 0
    let (props, _) ← readIf (buf.length > 1) (decodeDisconnectProperties buf 1)
    .ok ⟨rc.toNat, props⟩
  else .ok {}

/-- The AUTH case of `decode`. -/
def decodeAuth (buf : Bytes) : Except PyError Auth := do
  if buf.length < 1 then .error (.valueError "AUTH too short")
  else
    let rc ← byteAt buf 0
    let (props, _) ← readIf (buf.length > 1) (decodeAuthProperties buf 1)
    .ok ⟨rc.toNat, props⟩

/-- The `match packet_type` of `decode`: the packet in a body of known type. -/
def decodeBody (packetType : PacketType) (flags : Nat) (body : Bytes) (version : Version) :
    Except PyError Packet :=
  match packetType with
  | .connect => do .ok (.connect (← decodeConnect body))
  | .connack => do .ok (.connack (← decodeConnack body version))
  | .publish => do .ok (.publish (← decodePublish body flags version))
  | .puback => do .ok (.puback (← decodePubAckVariant body version))
  | .pubrec => do .ok (.pubrec (← decodePubAckVariant body version))
  | .pubrel => do .ok (.pubrel (← decodePubAckVariant body version))
  | .pubcomp => do .ok (.pubcomp (← decodePubAckVariant body version))
  | .subscribe => do .ok (.subscribe (← decodeSubscribe body version))
  | .suback => do .ok (.suback (← decodeSuback body version))
  | .unsubscribe => do .ok (.unsubscribe (← decodeUnsubscribe body version))
  | .unsuback => do .ok (.unsuback (← decodeUnsuback body version))
  | .pingreq => .ok .pingreq
  | .pingresp => .ok .pingresp
  | .disconnect => do .ok (.disconnect (← decodeDisconnect body version))
  | .auth => do .ok (.auth (← decodeAuth body))

/-- The remaining-length loop inlined in `decode`, with `k` iterations left: `none` when
    the fixed header is not fully received, else the remaining length and its bytes. -/
def remainingLengthLoop (buffer : Bytes) :
    (k i multiplier remaining : Nat) → Except PyError (Option (Nat × Nat))
  | 0, _, _, _ => .error (.valueError "Remaining-length varint exceeds 4 bytes")
  | k + 1, i, multiplier, remaining =>
      match buffer[1 + i]? with
      | none => .ok none
      | some byte =>
          let remaining := remaining + (byte &&& 0x7F).toNat * multiplier
          if byte &&& 0x80 = 0 then .ok (some (remaining, i + 1))
          else remainingLengthLoop buffer k (i + 1) (multiplier * 128) remaining

/-- `decode`. -/
def decode (buffer : Bytes) (version : Version) : Except PyError (Option (Packet × Nat)) := do
  if buffer.length < 2 then .ok none
  else
    let firstByte ← byteAt buffer 0
    let packetTypeVal := (firstByte.toNat >>> 4) &&& 0x0F
    let flags := firstByte.toNat &&& 0x0F
    match ← remainingLengthLoop buffer 4 0 1 0 with
    | none => .ok none
    | some (remainingLength, varintBytes) =>
        let total := 1 + varintBytes + remainingLength
        if buffer.length < total then .ok none
        else
          match PacketType.ofVal? packetTypeVal with
          | none => .error (.valueError ("Unknown MQTT packet type: " ++ toString packetTypeVal))
          | some packetType =>
              let body := (buffer.drop (1 + varintBytes)).take remainingLength
              let packet ← decodeBody packetType flags body version
              .ok (some (packet, total))

end Zmqtt
