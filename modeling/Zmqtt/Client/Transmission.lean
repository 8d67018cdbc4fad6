/-
  What the application asks of a client and what the broker is told (`client.py`): the arguments
  of `MQTTClient`, `subscribe` and `publish`, their checks, and the packets built from them.

  A property or an option of MQTT 5 has no place in a packet of MQTT 3.1.1; the codec leaves it
  out without an error. The checks of the client refuse such arguments, so that what it accepts
  arrives in full: the packet read at the other end is the packet that was built, but for
  property records without any property, which are read as `None` (`Packet.withoutEmpty`).
-/
import Zmqtt.Client.Subscriptions
import Zmqtt.Packets.Reencoding
import Zmqtt.Packets.Streams
import Zmqtt.Requests.Validation
import Zmqtt.Session.OutboundHandshake

namespace Zmqtt

/-! ## CONNECT -/

/-- The arguments of `MQTTClient` that its constructor checks or that go into CONNECT. -/
structure ClientConfig where
  version : Version := .v311
  clientId : String := ""
  keepalive : Int := 60
  cleanSession : Bool := true
  username : Option String := none
  password : Option String := none
  will : Option Will := none
  mqttConnectTimeout : ℚ := 30
  sessionExpiryInterval : Int := 0
  sessionReplayBufferSize : Int := 1000
  sessionReplayTimeout : ℚ := 30
  deriving DecidableEq

/-- What the constructor and `subscribe` raise. -/
inductive ArgumentError where
  | valueError (msg : String)
  | runtimeError (msg : String)
  | invalidTopic (e : InvalidTopicError)
  deriving Repr, DecidableEq

namespace ClientConfig

/-- The checks of `MQTTClient.__init__`. -/
def check (c : ClientConfig) : Except ArgumentError Unit :=
  if ¬ 0 < c.mqttConnectTimeout then
    .error (.valueError "mqtt_connect_timeout must be positive")
  else if c.sessionReplayBufferSize < 0 then
    .error (.valueError "session_replay_buffer_size must be non-negative")
  else if ¬ 0 < c.sessionReplayTimeout then
    .error (.valueError "session_replay_timeout must be positive")
  else if (c.will.bind Will.properties).isSome ∧ c.version ≠ .v5 then
    .error (.runtimeError "will properties require MQTT 5.0")
  else .ok ()

/-- The CONNECT packet of `_connect`. -/
def connectPacket (c : ClientConfig) : Connect where
  clientId := c.clientId
  cleanSession := c.cleanSession
  keepalive := c.keepalive
  username := c.username
  password := c.password.map utf8Encode
  will := c.will
  properties :=
    if c.version = .v5 then some { sessionExpiryInterval := some c.sessionExpiryInterval } else none

end ClientConfig

/-- A client's packet, once its bytes have arrived. -/
theorem decode_of_norm {version : Version} {p q : Packet} {bs : Bytes} (hnorm : p.norm version = q)
    (h : encode p version = .ok bs) (rest : Bytes) :
    decode (bs ++ rest) version = .ok (some (q, bs.length)) :=
  hnorm ▸ (packetCodec version).roundTrip rest h

namespace ClientConfig

/-- A checked configuration has will properties in MQTT 5 only. -/
theorem will_properties_of_check {c : ClientConfig} (h : c.check = .ok ()) {will : Will}
    (hwill : c.will = some will) (hv : c.version ≠ .v5) : will.properties = none := by
  unfold check at h
  split at h
  · cases h
  · split at h
    · cases h
    · split at h
      · cases h
      · split at h
        · cases h
        · next hnot =>
          rw [hwill] at hnot
          by_contra hsome
          exact hnot ⟨Option.isSome_iff_ne_none.2 hsome, hv⟩

/-- CONNECT keeps all of a checked configuration. -/
theorem norm_connectPacket {c : ClientConfig} (h : c.check = .ok ()) :
    (Packet.connect c.connectPacket).norm c.version =
      .connect { c.connectPacket with will := c.will.map Will.withoutEmpty } := by
  have hprops : normProperties connectCodec c.version c.connectPacket.properties =
      c.connectPacket.properties := by
    unfold normProperties connectPacket
    split
    · rfl
    · rfl
  have hwill : c.will.map (Will.norm c.version) = c.will.map Will.withoutEmpty := by
    cases hw : c.will with
    | none => rfl
    | some will =>
      refine congrArg some ?_
      unfold Will.norm Will.withoutEmpty normProperties
      split
      · rfl
      · next hv => rw [will_properties_of_check h hw hv, normProps_none]
  show Packet.connect { c.connectPacket with
    will := c.will.map (Will.norm c.version)
    properties := normProperties connectCodec c.version c.connectPacket.properties } = _
  rw [hprops, hwill]

/-- **CONNECT tells the broker the whole configuration.** When the constructor accepts its
    arguments and CONNECT can be encoded, the broker reads back the client id, the clean-session
    flag, the keepalive, the credentials, the will and, in MQTT 5, the session expiry. -/
theorem connect_transmitted (c : ClientConfig) (h : c.check = .ok ()) (bs rest : Bytes)
    (hbs : encode (.connect c.connectPacket) c.version = .ok bs) :
    ∃ p : Connect, decode (bs ++ rest) c.version = .ok (some (.connect p, bs.length)) ∧
      p.clientId = c.clientId ∧ p.cleanSession = c.cleanSession ∧ p.keepalive = c.keepalive ∧
      p.username = c.username ∧ p.password = c.password.map utf8Encode ∧
      p.will = c.will.map Will.withoutEmpty ∧
      p.properties = if c.version = .v5 then
        some { sessionExpiryInterval := some c.sessionExpiryInterval } else none :=
  ⟨_, decode_of_norm (norm_connectPacket h) hbs rest, rfl, rfl, rfl, rfl, rfl, rfl, rfl⟩

/-- A will and credentials on MQTT 3.1.1. -/
def sampleConfig : ClientConfig where
  clientId := "c"
  username := some "u"
  password := some "p"
  will := some ⟨"w", [1], .atLeastOnce, true, none⟩

theorem connect_transmitted_sampleConfig :
    ∃ p : Connect, decode ([16, 25, 0, 4, 77, 81, 84, 84, 4, 238, 0, 60, 0, 1, 99, 0, 1, 119, 0, 1, 1,
        0, 1, 117, 0, 1, 112] ++ [192, 0]) .v311 = .ok (some (.connect p, 27)) ∧
      p.clientId = "c" ∧ p.cleanSession = true ∧ p.keepalive = 60 ∧ p.username = some "u" ∧
      p.password = (some "p").map utf8Encode ∧
      p.will = (some ⟨"w", [1], .atLeastOnce, true, none⟩ : Option Will).map Will.withoutEmpty ∧
      p.properties = if Version.v311 = .v5 then some { sessionExpiryInterval := some 0 } else none :=
  connect_transmitted sampleConfig (by decide +kernel) _ [192, 0] (by decide +kernel)

end ClientConfig

/-! ## SUBSCRIBE -/

/-- The arguments of `subscribe`. -/
structure SubscribeArgs where
  filters : List String
  qos : QoS := .atMostOnce
  autoAck : Bool := true
  noLocal : Bool := false
  retainAsPublished : Bool := false
  retainHandling : RetainHandling := .sendOnSubscribe
  subscriptionIdentifier : Option Int := none
  deriving Repr, DecidableEq

/-- `_MAX_SUBSCRIPTION_IDENTIFIER`. -/
def maxSubscriptionIdentifier : Int := 268435455

namespace SubscribeArgs

/-- `for f in filters: validate_subscribe_topic(f)`. -/
def validateFilters : List String → Except InvalidTopicError Unit
  | [] => .ok ()
  | f :: filters => do
      validateSubscribeTopic f
      validateFilters filters

/-- `uses_v5_option`. -/
def usesV5Option (args : SubscribeArgs) : Bool :=
  args.noLocal || args.retainAsPublished || args.retainHandling ≠ .sendOnSubscribe

/-- The requests of `_do_subscribe`. -/
def requests (args : SubscribeArgs) : List SubscriptionRequest :=
  args.filters.map fun f =>
    { topicFilter := f
      qos := args.qos
      noLocal := args.noLocal
      retainAsPublished := args.retainAsPublished
      retainHandling := args.retainHandling }

/-- `subscribe` of a client for `version`. -/
def subscribe (version : Version) (args : SubscribeArgs) : Except ArgumentError ClientSubscription :=
  match validateFilters args.filters with
  | .error e => .error (.invalidTopic e)
  | .ok () =>
      if args.usesV5Option ∧ version ≠ .v5 then
        .error (.runtimeError "no_local, retain_as_published, and retain_handling require MQTT 5.0")
      else
        match args.subscriptionIdentifier with
        | none => .ok { filters := args.requests, autoAck := args.autoAck }
        | some identifier =>
            if version ≠ .v5 then
              .error (.runtimeError "subscription_identifier requires MQTT 5.0")
            else if ¬ (1 ≤ identifier ∧ identifier ≤ maxSubscriptionIdentifier) then
              .error (.valueError "subscription_identifier must be in 1..268435455")
            else
              .ok { filters := args.requests, autoAck := args.autoAck
                    subscriptionIdentifier := some identifier }

/-- The SUBSCRIBE packet of `_send_subscribe`. -/
def packet (args : SubscribeArgs) (pid : Int) : Subscribe :=
  ⟨pid, args.requests, args.subscriptionIdentifier.map fun i => { subscriptionIdentifier := some i }⟩

theorem validateFilters_eq_ok {filters : List String} :
    validateFilters filters = .ok () ↔ ∀ f ∈ filters, validateSubscribeTopic f = .ok () := by
  induction filters with
  | nil => exact ⟨fun _ f hf => (by cases hf), fun _ => rfl⟩
  | cons f filters ih =>
    rw [validateFilters, List.forall_mem_cons, ← ih]
    constructor
    · intro h
      obtain ⟨u, hf, hrest⟩ := bind_eq_ok.1 h
      exact ⟨hf, hrest⟩
    · rintro ⟨hf, hrest⟩
      rw [hf, ok_bind, hrest]

/-- What `subscribe` accepts, and what it makes of it. -/
theorem subscribe_eq_ok {version : Version} {args : SubscribeArgs} {sub : ClientSubscription} :
    subscribe version args = .ok sub ↔
      ((∀ f ∈ args.filters, validateSubscribeTopic f = .ok ()) ∧
        (∀ i ∈ args.subscriptionIdentifier, 1 ≤ i ∧ i ≤ maxSubscriptionIdentifier) ∧
        (version ≠ .v5 → args.usesV5Option = false ∧ args.subscriptionIdentifier = none)) ∧
      sub = { filters := args.requests, autoAck := args.autoAck
              subscriptionIdentifier := args.subscriptionIdentifier } := by
  rw [← validateFilters_eq_ok]
  unfold subscribe
  rcases hf : validateFilters args.filters with e | _
  · simp
  · by_cases hv : args.usesV5Option = true ∧ version ≠ .v5
    · dsimp only
      rw [if_pos hv]
      refine iff_of_false (fun h => ?_) fun h => ?_
      · cases h
      · have hfalse := (h.1.2.2 hv.2).1
        rw [hv.1] at hfalse
        cases hfalse
    · have hopt : version ≠ .v5 → args.usesV5Option = false :=
        fun h => Bool.eq_false_of_not_eq_true fun ho => hv ⟨ho, h⟩
      dsimp only
      rw [if_neg hv]
      rcases hi : args.subscriptionIdentifier with _ | i
      · constructor
        · intro h
          exact ⟨⟨rfl, fun i hi => (by cases hi), fun h5 => ⟨hopt h5, rfl⟩⟩, (Except.ok.inj h).symm⟩
        · rintro ⟨-, rfl⟩
          rfl
      · dsimp only
        split
        · next h5 =>
          refine iff_of_false (fun h => ?_) fun h => ?_
          · cases h
          · cases (h.1.2.2 h5).2
        · next h5 =>
          split
          · next hrange =>
            refine iff_of_false (fun h => ?_) fun h => hrange (h.1.2.1 i rfl)
            cases h
          · next hrange =>
            constructor
            · intro h
              refine ⟨⟨rfl, fun j hj => ?_, fun h => absurd h h5⟩, (Except.ok.inj h).symm⟩
              obtain rfl := Option.some.inj hj
              exact not_not.1 hrange
            · rintro ⟨-, rfl⟩
              rfl

/-- SUBSCRIBE keeps an option only in MQTT 5, and the properties too. -/
theorem norm_packet_iff {version : Version} {args : SubscribeArgs} (hne : args.filters ≠ [])
    (pid : Int) :
    (Packet.subscribe (args.packet pid)).norm version = .subscribe (args.packet pid) ↔
      (version ≠ .v5 → args.usesV5Option = false ∧ args.subscriptionIdentifier = none) := by
  obtain ⟨f, filters, hfilters⟩ := List.exists_cons_of_ne_nil hne
  by_cases hv : version = .v5
  · subst hv
    refine ⟨fun _ h => absurd rfl h, fun _ => congrArg Packet.subscribe ?_⟩
    have hprops : normProperties subscribeCodec .v5 (args.packet pid).properties =
        (args.packet pid).properties := by
      unfold normProperties packet
      rw [if_pos rfl]
      cases args.subscriptionIdentifier with
      | none => rfl
      | some i => rfl
    have hsubs : (args.packet pid).subscriptions.map (SubscriptionRequest.norm .v5) =
        (args.packet pid).subscriptions := List.map_id _
    rw [Subscribe.norm, hprops, hsubs]
  · have hnorm : (args.packet pid).norm version =
        ⟨pid, args.filters.map fun f => { topicFilter := f, qos := args.qos }, none⟩ := by
      unfold Subscribe.norm normProperties packet requests SubscriptionRequest.norm
      simp [hv]
    show Packet.subscribe ((args.packet pid).norm version) = _ ↔ _
    rw [hnorm, Packet.subscribe.injEq, Subscribe.mk.injEq, packet, requests, hfilters]
    simp only [List.map_cons, List.cons.injEq, SubscriptionRequest.mk.injEq, usesV5Option]
    constructor
    · rintro ⟨-, ⟨⟨-, -, hlocal, hretain, hhandling⟩, -⟩, hi⟩ -
      exact ⟨by simp [← hlocal, ← hretain, ← hhandling], Option.map_eq_none_iff.1 hi.symm⟩
    · intro h
      obtain ⟨ho, hi⟩ := h hv
      simp only [Bool.or_eq_false_iff, decide_eq_false_iff_not, not_not] at ho
      obtain ⟨⟨hlocal, hretain⟩, hhandling⟩ := ho
      simp [hlocal, hretain, hhandling, hi]

/-- **SUBSCRIBE tells the broker every option.** `subscribe` accepts exactly the valid filters with
    options that the wire format of the version carries in full; and what it accepts is read by
    the broker with all filters, options and the identifier. -/
theorem subscribe_transmitted (version : Version) (args : SubscribeArgs) (hne : args.filters ≠ [])
    (pid : Int) :
    ((∃ sub, subscribe version args = .ok sub) ↔
      (∀ f ∈ args.filters, validateSubscribeTopic f = .ok ()) ∧
      (∀ i ∈ args.subscriptionIdentifier, 1 ≤ i ∧ i ≤ maxSubscriptionIdentifier) ∧
      (Packet.subscribe (args.packet pid)).norm version = .subscribe (args.packet pid)) ∧
    ∀ sub, subscribe version args = .ok sub → sub.filters = args.requests ∧
      sub.subscriptionIdentifier = args.subscriptionIdentifier ∧
      ∀ bs rest, encode (.subscribe (args.packet pid)) version = .ok bs →
        decode (bs ++ rest) version = .ok (some (.subscribe (args.packet pid), bs.length)) := by
  refine ⟨?_, fun sub h => ?_⟩
  · rw [norm_packet_iff hne]
    constructor
    · rintro ⟨sub, h⟩
      exact (subscribe_eq_ok.1 h).1
    · intro h
      exact ⟨_, subscribe_eq_ok.2 ⟨h, rfl⟩⟩
  · obtain ⟨⟨-, -, hv⟩, rfl⟩ := subscribe_eq_ok.1 h
    exact ⟨rfl, rfl, fun bs rest hbs => decode_of_norm ((norm_packet_iff hne pid).2 hv) hbs rest⟩

/-- A shared subscription with an identifier, on MQTT 5. -/
def sampleArgs : SubscribeArgs where
  filters := ["$share/g/a/#", "b/+"]
  qos := .atLeastOnce
  noLocal := true
  subscriptionIdentifier := some 300

theorem subscribe_transmitted_sampleArgs :
    (∃ sub, subscribe .v5 sampleArgs = .ok sub) ∧ ¬ ∃ sub, subscribe .v311 sampleArgs = .ok sub := by
  constructor
  · exact (subscribe_transmitted .v5 sampleArgs (by decide) 1).1.2
      ⟨by decide +kernel, by decide +kernel, by decide +kernel⟩
  · intro h
    obtain ⟨-, -, hnorm⟩ := (subscribe_transmitted .v311 sampleArgs (by decide) 1).1.1 h
    revert hnorm
    decide +kernel

end SubscribeArgs

/-! ## PUBLISH -/

/-- What `publish` of the protocol writes, if it writes: the packet with its id. -/
theorem Protocol.publish_written {p : Protocol} {packet : Publish} {item : Packet}
    {owner : Option Nat} (h : (p.publish packet).written = (item, owner) :: p.written) :
    ∃ pid, item = .publish { packet with packetId := pid } ∧
      (pid = none → packet.qos = .atMostOnce) := by
  have hne : p.written ≠ (item, owner) :: p.written := fun he => List.cons_ne_self _ _ he.symm
  have hstart : ∀ kind, (p.startCall kind [] fun pid =>
      .publish { packet with packetId := some pid }).written = (item, owner) :: p.written →
        ∃ pid, item = .publish { packet with packetId := pid } ∧
          (pid = none → packet.qos = .atMostOnce) := by
    intro kind hw
    rcases p.startCall_cases kind [] fun pid => .publish { packet with packetId := some pid } with
      heq | ⟨pid, pool, -, ⟨e, -, heq⟩ | ⟨-, heq⟩⟩
    · rw [heq] at hw
      exact absurd hw hne
    · rw [heq] at hw
      exact absurd hw hne
    · rw [heq] at hw
      refine ⟨some pid, ?_, fun hnone => by cases hnone⟩
      exact (Prod.mk.inj (List.cons.inj hw).1).1.symm
  unfold publish at h
  split at h
  · exact absurd h hne
  · split at h
    · next hqos =>
      split at h
      · exact absurd h hne
      · refine ⟨packet.packetId, ?_, fun _ => hqos⟩
        exact (Prod.mk.inj (List.cons.inj h).1).1.symm
    · exact hstart _ h
    · exact hstart _ h

namespace MqttClient

/-- **PUBLISH tells the broker the whole message.** What `publish` of the client sends is read by
    the broker with the topic, the payload, the QoS, the retain flag and all the properties that
    the application gave, and a packet id exactly above QoS 0. -/
theorem publish_transmitted (c c' : MqttClient) (p p' : Protocol) (topic : String) (payload : Bytes)
    (qos : QoS) (retain : Bool) (properties : Option PublishProperties) (packet : Packet)
    (owner : Option Nat) (bs rest : Bytes) (hp : c.protocol = some p) (hversion : p.version = c.version)
    (h : c.publish topic payload qos retain properties = .ok c') (hp' : c'.protocol = some p')
    (hw : p'.written = (packet, owner) :: p.written) (hbs : encode packet p.version = .ok bs) :
    ∃ pid, (pid = none ↔ qos = .atMostOnce) ∧ decode (bs ++ rest) p.version =
      .ok (some (.publish ⟨topic, payload, qos, retain, false, pid,
        normProps publishCodec properties⟩, bs.length)) := by
  unfold publish at h
  rw [hp] at h
  split at h
  · cases h
  · dsimp only at h
    split at h
    · cases h
    · next hprops =>
      cases h
      obtain rfl : _ = p' := Option.some.inj hp'
      obtain ⟨pid, rfl, hpid⟩ := Protocol.publish_written hw
      refine ⟨if qos = .atMostOnce then none else pid, ?_, decode_of_norm ?_ hbs rest⟩
      · split
        · next hqos => exact ⟨fun _ => hqos, fun _ => rfl⟩
        · next hqos => exact ⟨fun hnone => absurd (hpid hnone) hqos, fun h => absurd h hqos⟩
      · have hnorm : normProperties publishCodec p.version properties =
            normProps publishCodec properties := by
          unfold normProperties
          split
          · rfl
          · next hv =>
            rw [hversion] at hv
            rw [Option.not_isSome_iff_eq_none.1 fun hs => hprops ⟨hs, hv⟩]
            rfl
        show Packet.publish ⟨topic, payload, qos, retain, false, if qos = .atMostOnce then none else pid,
          normProperties publishCodec p.version properties⟩ = _
        rw [hnorm]

/-- A client on a fresh connection. -/
def sampleClient : MqttClient :=
  ⟨.v311, some (Protocol.fresh .v311 .exactlyOnce), { free := 1 }⟩

theorem publish_transmitted_sampleClient :
    ∃ pid, (pid = none ↔ QoS.atLeastOnce = .atMostOnce) ∧
      decode ([50, 6, 0, 1, 116, 0, 1, 7] ++ []) .v311 =
        .ok (some (.publish ⟨"t", [7], .atLeastOnce, false, false, pid,
          normProps publishCodec none⟩, 8)) := by
  have hvalid : validatePublish "t" = .ok () := by decide +kernel
  let p := Protocol.fresh .v311 .exactlyOnce
  let p' := p.publish ⟨"t", [7], .atLeastOnce, false, false, none, none⟩
  have h : sampleClient.publish "t" [7] .atLeastOnce false none =
      .ok { sampleClient with protocol := some p' } := by
    unfold MqttClient.publish
    rw [hvalid]
    exact if_neg fun hno => Bool.false_ne_true hno.1
  have hw : p'.written =
      (.publish ⟨"t", [7], .atLeastOnce, false, false, some 1, none⟩, some 0) :: p.written := by
    decide +kernel
  have hbs : encode (.publish ⟨"t", [7], .atLeastOnce, false, false, some 1, none⟩) p.version =
      .ok [50, 6, 0, 1, 116, 0, 1, 7] := by
    decide +kernel
  exact publish_transmitted sampleClient { sampleClient with protocol := some p' } p p' "t" [7]
    .atLeastOnce false none _ _ _ [] rfl rfl h rfl hw hbs

end MqttClient

end Zmqtt
