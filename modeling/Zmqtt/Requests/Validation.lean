/-
  `MQTTClient.request` up to its first suspension (`client.py`): what it validates, and what
  it has done by then.

  `request` checks `properties.response_topic` itself, and leaves the request topic to
  `publish`, which it calls after `register`. So a rejected response topic is raised with
  nothing done (`request_of_rejected_response`), and a rejected request topic only after the
  request is registered (`pending_of_register`), or not at all when `register` waits or raises
  (`raisesFirst_iff`).

  `RequestMoment`s are the states of the client after each statement that acts. A `str` payload is
  given by its UTF-8 bytes; the random bytes are arguments. What `request` does after
  `publish` has begun is not followed.
-/
import Zmqtt.Requests.Interest
import Zmqtt.Session.Protocol
import Zmqtt.Topics.Filter

namespace Zmqtt

/-- The arguments of `request`, without its timeout. -/
structure RequestArgs where
  topic : String
  payload : Bytes
  qos : QoS := .atMostOnce
  properties : Option PublishProperties := none
  deriving Repr, DecidableEq

/-- What `request` and `publish` raise; `register` stands for what `register` raises. -/
inductive RequestError where
  | runtimeError (msg : String)
  | invalidTopic (e : InvalidTopicError)
  | disconnected (msg : String)
  | register
  deriving Repr, DecidableEq

/-- `MQTTClient`, as far as `request` uses it. -/
structure MqttClient where
  version : Version
  protocol : Option Protocol
  requestDispatcher : RequestDispatcher

/-- Where a call of `request` is: suspended in `register`, about to publish the registered
    request, in `publish`, suspended in `pending.close()` with an exception to raise after
    it, or ended by an exception. -/
inductive RequestPc where
  | registering (caller : Nat)
  | registered (request : Nat)
  | publishing (request : Nat)
  | closing (caller : Nat) (e : RequestError)
  | raised (e : RequestError)
  deriving Repr, DecidableEq

/-- The client after a statement of `request`, and where the call is then. -/
structure RequestMoment where
  client : MqttClient
  pc : RequestPc

/-! ## `request` -/

/-- `bytes.hex()`. -/
def hex (bytes : Bytes) : String :=
  String.ofList (bytes.flatMap fun b => [Nat.digitChar (b.toNat / 16), Nat.digitChar (b.toNat % 16)])

namespace RequestArgs

/-- The reply topic: `properties.response_topic`, validated, or a generated one. -/
def replyTopic (args : RequestArgs) (randomTopic : Bytes) : Except InvalidTopicError String := do
  match args.properties.bind PublishProperties.responseTopic with
  | some replyTopic =>
      validateResponseTopic replyTopic
      .ok replyTopic
  | none => .ok ("_zmqtt/reply/" ++ hex randomTopic)

/-- The correlation data: `properties.correlation_data`, or random bytes. -/
def corr (args : RequestArgs) (randomData : Bytes) : Bytes :=
  (args.properties.bind PublishProperties.correlationData).getD randomData

/-- `dataclasses.replace(properties, …)`, or new properties. -/
def reqProps (args : RequestArgs) (replyTopic : String) (corr : Bytes) : PublishProperties :=
  { args.properties.getD {} with responseTopic := some replyTopic, correlationData := some corr }

end RequestArgs

namespace MqttClient

/-- `publish`, up to the call of `Protocol.publish`. -/
def publish (c : MqttClient) (topic : String) (payload : Bytes) (qos : QoS) (retain : Bool)
    (properties : Option PublishProperties) : Except RequestError MqttClient :=
  match validatePublish topic with
  | .error e => .error (.invalidTopic e)
  | .ok () =>
      match c.protocol with
      | none => .error (.disconnected "Not connected")
      | some protocol =>
          if properties.isSome ∧ c.version ≠ .v5 then
            .error (.runtimeError "properties require MQTT 5.0")
          else
            .ok { c with protocol := some (protocol.publish
              { topic, payload, qos, retain, dup := false, properties }) }

/-- Where caller `k` of the dispatcher is. -/
def callerPc (c : MqttClient) (k : Nat) : Option CallerPc := c.requestDispatcher.pcOf k

/-- The `finally` block of `request`, when `e` is to be raised. -/
def closeRequest (c : MqttClient) (r : Nat) (e : RequestError) : RequestMoment :=
  let k := c.requestDispatcher.callers.length
  let c := { c with requestDispatcher := c.requestDispatcher.close r }
  match c.callerPc k with
  | some .ended | none => ⟨c, .raised e⟩
  | some _ => ⟨c, .closing k e⟩

/-- The `try` block of `request`, up to its first suspension. -/
def publishRequest (c : MqttClient) (args : RequestArgs) (props : PublishProperties) (r : Nat) :
    RequestMoment :=
  match c.publish args.topic args.payload args.qos false (some props) with
  | .error e => c.closeRequest r e
  | .ok c => ⟨c, .publishing r⟩

/-- `request`, up to its first suspension: its moments, the last one where it suspends or
    ends. -/
def request (c : MqttClient) (args : RequestArgs) (randomTopic randomData : Bytes) : List RequestMoment :=
  if c.version ≠ .v5 then [⟨c, .raised (.runtimeError "request() requires MQTT 5.0")⟩]
  else
    match args.replyTopic randomTopic with
    | .error e => [⟨c, .raised (.invalidTopic e)⟩]
    | .ok replyTopic =>
        let corr := args.corr randomData
        let k := c.requestDispatcher.callers.length
        let c := { c with requestDispatcher := c.requestDispatcher.register (replyTopic, corr) }
        match c.callerPc k with
        | some (.returned r) =>
            [⟨c, .registered r⟩, c.publishRequest args (args.reqProps replyTopic corr) r]
        | some .ended => [⟨c, .raised .register⟩]
        | _ => [⟨c, .registering k⟩]

end MqttClient

/-! ## What a call has done -/

/-- No packet was written, and the requests, the response topics, the free permits and the
    response observers are the same. -/
structure MqttClient.Unchanged (c c' : MqttClient) : Prop where
  written : c'.protocol.map Protocol.written = c.protocol.map Protocol.written
  pending : c'.requestDispatcher.pending = c.requestDispatcher.pending
  topics : c'.requestDispatcher.topics = c.requestDispatcher.topics
  free : c'.requestDispatcher.free = c.requestDispatcher.free
  observers : c'.requestDispatcher.observers = c.requestDispatcher.observers

/-- The call raises `MQTTInvalidTopicError`, and nothing has changed at any moment. -/
def RaisesFirst (c : MqttClient) (moments : List RequestMoment) : Prop :=
  (∀ m ∈ moments, c.Unchanged m.client) ∧
    ∃ m e, moments.getLast? = some m ∧ m.pc = .raised (.invalidTopic e)

/-- `validate_response_topic` rejects the response topic of the call. -/
def RequestArgs.ResponseRejected (args : RequestArgs) : Prop :=
  ∃ topic, args.properties.bind PublishProperties.responseTopic = some topic ∧
    validateResponseTopic topic ≠ .ok ()

/-- `validate_publish` rejects the request topic. -/
def RequestArgs.TopicRejected (args : RequestArgs) : Prop := validatePublish args.topic ≠ .ok ()

/-! ## `register` -/

namespace RequestDispatcher

variable {d : RequestDispatcher} {k : Nat}

/-- `register` has not returned to caller `k`. -/
def NotReturned (d : RequestDispatcher) (k : Nat) : Prop := ∀ r, d.pcOf k ≠ some (.returned r)

theorem notReturned_setPc (d : RequestDispatcher) {pc : CallerPc} (hpc : ∀ r, pc ≠ .returned r) :
    (d.setPc k pc).NotReturned k := by
  intro r h
  rw [pcOf, setPc, List.getElem?_modify_eq] at h
  obtain ⟨caller, hc, hr⟩ := Option.map_eq_some_iff.1 h
  obtain ⟨old, -, rfl⟩ := Option.map_eq_some_iff.1 hc
  exact hpc r hr

/-- A permit that goes to a caller does not return to it. -/
theorem NotReturned.release (h : d.NotReturned k) : d.release.NotReturned k := by
  unfold RequestDispatcher.release
  split
  · exact h
  · next j waiters _ =>
    by_cases hj : j = k
    · subst hj
      exact notReturned_setPc _ fun r hr => by cases hr
    · intro r hr
      refine h r ?_
      rw [pcOf, setPc, List.getElem?_modify_ne _ _ hj] at hr
      exact hr

theorem notReturned_finishUnregister (d : RequestDispatcher) : (d.finishUnregister k).NotReturned k :=
  (notReturned_setPc d fun r hr => by cases hr).release

theorem notReturned_teardown (d : RequestDispatcher) (topic : String) (i : Nat)
    (observerActive : Bool) : (d.teardown k topic i observerActive).NotReturned k := by
  unfold RequestDispatcher.teardown
  split
  · dsimp only
    split
    · exact notReturned_setPc _ fun r hr => by cases hr
    · exact notReturned_finishUnregister _
  · exact notReturned_finishUnregister d

theorem notReturned_unregister (d : RequestDispatcher) (r : Nat) :
    (d.unregister k r).NotReturned k := by
  unfold RequestDispatcher.unregister
  split
  · exact notReturned_setPc d fun r hr => by cases hr
  · split
    · split
      · exact notReturned_finishUnregister _
      · dsimp only
        split
        · exact notReturned_finishUnregister _
        · unfold RequestDispatcher.awaitTeardown
          split
          · exact notReturned_teardown _ _ _ _
          · split
            · exact notReturned_teardown _ _ _ _
            · exact notReturned_teardown _ _ _ _
            all_goals exact notReturned_setPc _ fun r hr => by cases hr
    · exact notReturned_setPc d fun r hr => by cases hr

/-- When `register` returns at once, the request is in `_pending`, where it was not. -/
theorem pending_of_registered {key : RequestKey} {r : Nat}
    (h : (d.registered k key).pcOf k = some (.returned r)) :
    d.pending.get? key = none ∧ (d.registered k key).pending.get? key ≠ none := by
  unfold RequestDispatcher.registered at h ⊢
  split at h
  · next connection hnone _ =>
    refine ⟨hnone, ?_⟩
    obtain ⟨topics, interests, htopic⟩ := topicInterest_frame d key.1
    dsimp only at h ⊢
    obtain ⟨adds, interests', hready⟩ := ensureTopicReady_frame
      ((d.topicInterest key.1).1.addWaiter key (d.topicInterest key.1).2) connection key.1
      (d.topicInterest key.1).2
    unfold RequestDispatcher.awaitReady at h ⊢
    split at h
    · show (RequestDispatcher.ensureTopicReady _ _ _ _).1.pending.get? key ≠ none
      rw [hready, htopic]
      show (d.pending.set key d.requests.length).get? key ≠ none
      rw [Dict.get?_set, if_pos rfl]
      simp
    · exact absurd h (notReturned_unregister _ _ r)
    all_goals exact absurd h (notReturned_setPc _ (fun r hr => by cases hr) r)
  · exact absurd h ((notReturned_setPc d fun r hr => by cases hr).release r)

/-- When `register` returns at once, `_pending` has changed. -/
theorem pending_of_register {key : RequestKey} {r : Nat}
    (h : (d.register key).pcOf d.callers.length = some (.returned r)) :
    (d.register key).pending ≠ d.pending := by
  unfold RequestDispatcher.register at h ⊢
  dsimp only at h ⊢
  split at h
  · next hfree =>
    rw [if_pos hfree]
    obtain ⟨hnone, hsome⟩ := pending_of_registered h
    intro heq
    rw [heq] at hsome
    exact hsome hnone
  · rw [pcOf, List.getElem?_append_right (Nat.le_refl _), Nat.sub_self] at h
    cases h

end RequestDispatcher

/-! ## What `request` validates first -/

/-- A rejected response topic is raised before anything is done. -/
theorem request_of_rejected_response {c : MqttClient} {args : RequestArgs} (hv : c.version = .v5)
    (h : args.ResponseRejected) (randomTopic randomData : Bytes) :
    ∃ e, c.request args randomTopic randomData = [⟨c, .raised (.invalidTopic e)⟩] := by
  obtain ⟨topic, htopic, hbad⟩ := h
  cases hvalid : validateResponseTopic topic with
  | ok u => exact absurd hvalid hbad
  | error e =>
    refine ⟨e, ?_⟩
    have hreply : args.replyTopic randomTopic = .error e := by
      rw [RequestArgs.replyTopic, htopic]
      dsimp only
      rw [hvalid]
      rfl
    rw [MqttClient.request, if_neg (not_not.2 hv), hreply]

/-- **What `request` validates before it acts.** In every state of an MQTT 5 client, a call
    raises `MQTTInvalidTopicError` with no packet written and no change of the requests, the
    response topics, the permits or the response observers at any moment, if and only if it
    is given a response topic that is rejected. -/
theorem raisesFirst_iff {c : MqttClient} {args : RequestArgs} (hv : c.version = .v5)
    (randomTopic randomData : Bytes) :
    RaisesFirst c (c.request args randomTopic randomData) ↔ args.ResponseRejected := by
  constructor
  · rintro ⟨hsame, m, e, hlast, hpc⟩
    by_contra hnot
    rw [MqttClient.request, if_neg (not_not.2 hv)] at hsame hlast
    have hreply : ∃ topic, args.replyTopic randomTopic = .ok topic := by
      rw [RequestArgs.replyTopic]
      cases htopic : args.properties.bind PublishProperties.responseTopic with
      | none => exact ⟨_, rfl⟩
      | some topic =>
        dsimp only
        cases hvalid : validateResponseTopic topic with
        | ok u => exact ⟨topic, rfl⟩
        | error e => exact absurd ⟨topic, htopic, by rw [hvalid]; simp⟩ hnot
    obtain ⟨topic, hreply⟩ := hreply
    rw [hreply] at hsame hlast
    dsimp only at hsame hlast
    split at hlast
    · -- `register` has returned, so `_pending` has changed before `publish`
      next r hreturned =>
      rw [hreturned] at hsame
      have hfirst := hsame _ List.mem_cons_self
      exact RequestDispatcher.pending_of_register hreturned hfirst.pending
    · rw [List.getLast?_singleton, Option.some.injEq] at hlast
      rw [← hlast] at hpc
      cases hpc
    · rw [List.getLast?_singleton, Option.some.injEq] at hlast
      rw [← hlast] at hpc
      cases hpc
  · intro h
    obtain ⟨e, hrequest⟩ := request_of_rejected_response hv h randomTopic randomData
    rw [hrequest]
    refine ⟨fun m hm => ?_, _, e, rfl, rfl⟩
    rw [List.mem_singleton.1 hm]
    exact ⟨rfl, rfl, rfl, rfl, rfl⟩

/-- A connected client with room for 100 requests. -/
def connectedClient : MqttClient :=
  { version := .v5
    protocol := some (Protocol.fresh .v5 .exactlyOnce)
    requestDispatcher := (RequestDispatcher.start 100).bind }

/-- `request("cmd", b"x", properties=PublishProperties(response_topic="reply/+/bad"))`. -/
theorem raisesFirst_bad_reply :
    RaisesFirst connectedClient (connectedClient.request
      { topic := "cmd", payload := [120],
        properties := some { responseTopic := some "reply/+/bad" } } [] []) := by
  have hbad : RequestArgs.ResponseRejected
      { topic := "cmd", payload := [120],
        properties := some { responseTopic := some "reply/+/bad" } } :=
    ⟨"reply/+/bad", rfl, by decide +kernel⟩
  exact (raisesFirst_iff rfl [] []).2 hbad

/-- `request("cmd/+", b"x")`, with both topics checked by the rules: the request is registered
    and its response topic is to be subscribed to, before the request topic is checked. -/
theorem rejected_topic_registers :
    ¬ ∀ (c : MqttClient) (args : RequestArgs) (randomTopic randomData : Bytes),
      c.version = .v5 → c.protocol.isSome → c.requestDispatcher.protocol.isSome →
      args.TopicRejected ∨ args.ResponseRejected →
      RaisesFirst c (c.request args randomTopic randomData) := by
  intro hall
  have hbad : RequestArgs.TopicRejected { topic := "cmd/+", payload := [120] } :=
    show validatePublish "cmd/+" ≠ .ok () by decide +kernel
  obtain ⟨hsame, -⟩ := hall connectedClient { topic := "cmd/+", payload := [120] }
    (List.replicate 16 0) (List.replicate 16 1) rfl rfl rfl (.inl hbad)
  have hempty : ∀ m ∈ connectedClient.request { topic := "cmd/+", payload := [120] }
      (List.replicate 16 0) (List.replicate 16 1),
      m.client.requestDispatcher.pending.length = 0 := by
    intro m hm
    rw [(hsame m hm).pending]
    rfl
  exact absurd hempty (by decide +kernel)

end Zmqtt
