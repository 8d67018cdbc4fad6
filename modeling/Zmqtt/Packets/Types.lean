/-
  The packet records (`packets/types.py`, `connect.py`, `publish.py`, `subscribe.py`,
  `disconnect.py`, `auth.py`, `ping.py`), the MQTT 5 property records of
  `properties.py`, and the enumerations `QoS` and `RetainHandling`.

  Integer fields are unbounded, as in the source; their wire range is checked by
  the encoder. `packet_type` is a class variable and is chosen by `encode`.
-/
import Zmqtt.Lib.Bytes

namespace Zmqtt

/-- `Literal["3.1.1", "5.0"]`. -/
inductive Version where
  | v311
  | v5
  deriving Repr, DecidableEq

inductive QoS where
  | atMostOnce
  | atLeastOnce
  | exactlyOnce
  deriving Repr, DecidableEq

/-- The `IntEnum` value. -/
def QoS.val : QoS → Nat
  | .atMostOnce => 0
  | .atLeastOnce => 1
  | .exactlyOnce => 2

/-- `QoS(n)`. -/
def QoS.ofVal (n : Nat) : Except PyError QoS :=
  match n with
  | 0 => .ok .atMostOnce
  | 1 => .ok .atLeastOnce
  | 2 => .ok .exactlyOnce
  | n => .error (.valueError (toString n ++ " is not a valid QoS"))

inductive RetainHandling where
  | sendOnSubscribe
  | sendIfNotExists
  | doNotSend
  deriving Repr, DecidableEq

/-- The `IntEnum` value. -/
def RetainHandling.val : RetainHandling → Nat
  | .sendOnSubscribe => 0
  | .sendIfNotExists => 1
  | .doNotSend => 2

/-- `RetainHandling(n)`. -/
def RetainHandling.ofVal (n : Nat) : Except PyError RetainHandling :=
  match n with
  | 0 => .ok .sendOnSubscribe
  | 1 => .ok .sendIfNotExists
  | 2 => .ok .doNotSend
  | n => .error (.valueError (toString n ++ " is not a valid RetainHandling"))

inductive PacketType where
  | connect
  | connack
  | publish
  | puback
  | pubrec
  | pubrel
  | pubcomp
  | subscribe
  | suback
  | unsubscribe
  | unsuback
  | pingreq
  | pingresp
  | disconnect
  | auth
  deriving Repr, DecidableEq

/-- The `IntEnum` value. -/
def PacketType.val : PacketType → Nat
  | .connect => 1
  | .connack => 2
  | .publish => 3
  | .puback => 4
  | .pubrec => 5
  | .pubrel => 6
  | .pubcomp => 7
  | .subscribe => 8
  | .suback => 9
  | .unsubscribe => 10
  | .unsuback => 11
  | .pingreq => 12
  | .pingresp => 13
  | .disconnect => 14
  | .auth => 15

/-- `PacketType(n)`; `none` is the `ValueError` of the enumeration. -/
def PacketType.ofVal? : Nat → Option PacketType
  | 1 => some .connect
  | 2 => some .connack
  | 3 => some .publish
  | 4 => some .puback
  | 5 => some .pubrec
  | 6 => some .pubrel
  | 7 => some .pubcomp
  | 8 => some .subscribe
  | 9 => some .suback
  | 10 => some .unsubscribe
  | 11 => some .unsuback
  | 12 => some .pingreq
  | 13 => some .pingresp
  | 14 => some .disconnect
  | 15 => some .auth
  | _ => none

theorem PacketType.ofVal?_val (t : PacketType) : PacketType.ofVal? t.val = some t := by
  cases t <;> rfl

/-! ## Property records -/

/-- An ordered sequence of user properties. -/
abbrev UserProperties := List (String × String)

structure ConnectProperties where
  sessionExpiryInterval : Option Int := none
  receiveMaximum : Option Int := none
  maximumPacketSize : Option Int := none
  topicAliasMaximum : Option Int := none
  requestResponseInformation : Option Bool := none
  requestProblemInformation : Option Bool := none
  authenticationMethod : Option String := none
  authenticationData : Option Bytes := none
  userProperties : UserProperties := []
  deriving Repr, DecidableEq

structure WillProperties where
  willDelayInterval : Option Int := none
  payloadFormatIndicator : Option Int := none
  messageExpiryInterval : Option Int := none
  contentType : Option String := none
  responseTopic : Option String := none
  correlationData : Option Bytes := none
  userProperties : UserProperties := []
  deriving Repr, DecidableEq

structure ConnAckProperties where
  sessionExpiryInterval : Option Int := none
  receiveMaximum : Option Int := none
  maximumQos : Option Int := none
  retainAvailable : Option Bool := none
  maximumPacketSize : Option Int := none
  assignedClientIdentifier : Option String := none
  topicAliasMaximum : Option Int := none
  reasonString : Option String := none
  wildcardSubscriptionAvailable : Option Bool := none
  subscriptionIdentifierAvailable : Option Bool := none
  sharedSubscriptionAvailable : Option Bool := none
  serverKeepAlive : Option Int := none
  responseInformation : Option String := none
  serverReference : Option String := none
  authenticationMethod : Option String := none
  authenticationData : Option Bytes := none
  userProperties : UserProperties := []
  deriving Repr, DecidableEq

structure PublishProperties where
  payloadFormatIndicator : Option Int := none
  messageExpiryInterval : Option Int := none
  topicAlias : Option Int := none
  responseTopic : Option String := none
  correlationData : Option Bytes := none
  subscriptionIdentifier : Option Int := none
  contentType : Option String := none
  userProperties : UserProperties := []
  deriving Repr, DecidableEq

/-- Properties of PUBACK, PUBREC, PUBREL and PUBCOMP. -/
structure PubAckProperties where
  reasonString : Option String := none
  userProperties : UserProperties := []
  deriving Repr, DecidableEq

structure SubscribeProperties where
  subscriptionIdentifier : Option Int := none
  userProperties : UserProperties := []
  deriving Repr, DecidableEq

structure SubAckProperties where
  reasonString : Option String := none
  userProperties : UserProperties := []
  deriving Repr, DecidableEq

structure UnsubscribeProperties where
  userProperties : UserProperties := []
  deriving Repr, DecidableEq

structure UnsubAckProperties where
  reasonString : Option String := none
  userProperties : UserProperties := []
  deriving Repr, DecidableEq

structure DisconnectProperties where
  sessionExpiryInterval : Option Int := none
  reasonString : Option String := none
  serverReference : Option String := none
  userProperties : UserProperties := []
  deriving Repr, DecidableEq

structure AuthProperties where
  authenticationMethod : Option String := none
  authenticationData : Option Bytes := none
  reasonString : Option String := none
  userProperties : UserProperties := []
  deriving Repr, DecidableEq

/-! ## Packets -/

/-- Last Will and Testament embedded in CONNECT. -/
structure Will where
  topic : String
  payload : Bytes
  qos : QoS
  retain : Bool
  properties : Option WillProperties := none
  deriving Repr, DecidableEq

structure Connect where
  clientId : String
  cleanSession : Bool
  keepalive : Int
  username : Option String := none
  password : Option Bytes := none
  will : Option Will := none
  properties : Option ConnectProperties := none
  deriving Repr, DecidableEq

structure ConnAck where
  sessionPresent : Bool
  returnCode : Int
  properties : Option ConnAckProperties := none
  deriving Repr, DecidableEq

structure Publish where
  topic : String
  payload : Bytes
  qos : QoS
  retain : Bool
  dup : Bool
  packetId : Option Int := none
  properties : Option PublishProperties := none
  deriving Repr, DecidableEq

/-- The fields shared by `PubAck`, `PubRec`, `PubRel` and `PubComp`. -/
structure PubAck where
  packetId : Int
  reasonCode : Int := 0
  properties : Option PubAckProperties := none
  deriving Repr, DecidableEq

structure SubscriptionRequest where
  topicFilter : String
  qos : QoS
  noLocal : Bool := false
  retainAsPublished : Bool := false
  retainHandling : RetainHandling := .sendOnSubscribe
  deriving Repr, DecidableEq

structure Subscribe where
  packetId : Int
  subscriptions : List SubscriptionRequest
  properties : Option SubscribeProperties := none
  deriving Repr, DecidableEq

structure SubAck where
  packetId : Int
  returnCodes : List Int
  properties : Option SubAckProperties := none
  deriving Repr, DecidableEq

structure Unsubscribe where
  packetId : Int
  topicFilters : List String
  properties : Option UnsubscribeProperties := none
  deriving Repr, DecidableEq

structure UnsubAck where
  packetId : Int
  reasonCodes : List Int := []
  properties : Option UnsubAckProperties := none
  deriving Repr, DecidableEq

structure Disconnect where
  reasonCode : Int := 0
  properties : Option DisconnectProperties := none
  deriving Repr, DecidableEq

structure Auth where
  reasonCode : Int := 0
  properties : Option AuthProperties := none
  deriving Repr, DecidableEq

/-- `AnyPacket`. -/
inductive Packet where
  | connect (p : Connect)
  | connack (p : ConnAck)
  | publish (p : Publish)
  | puback (p : PubAck)
  | pubrec (p : PubAck)
  | pubrel (p : PubAck)
  | pubcomp (p : PubAck)
  | subscribe (p : Subscribe)
  | suback (p : SubAck)
  | unsubscribe (p : Unsubscribe)
  | unsuback (p : UnsubAck)
  | pingreq
  | pingresp
  | disconnect (p : Disconnect)
  | auth (p : Auth)
  deriving Repr, DecidableEq

end Zmqtt
