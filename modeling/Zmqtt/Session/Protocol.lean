/-
  The operations of `MQTTProtocol` that own packet ids (`_internal/protocol.py`):
  `publish` above QoS 0, `_send_subscribe`, `_send_unsubscribe`, and the handlers of
  the broker's replies, over the tables of `SessionState` (`_internal/state.py`).

  A call is a task that is suspended at one of two awaits: in `transport.write`
  (`writer.write` has put the packet on the wire, `drain` has not returned) or on its
  future. `subscribe`, `unsubscribe` and the two response-observer methods reach the
  tables only through `_send_subscribe` and `_send_unsubscribe`, so calls of these
  start at any time. `task.cancel()` on a call that waits on a pending future cancels
  the future at once; elsewhere the `CancelledError` is thrown when the task is
  resumed. The read loop dispatches one packet at a time.
-/
import Zmqtt.Lib.Dict
import Zmqtt.Lib.Machine
import Zmqtt.Packets.Codec
import Zmqtt.Session.PacketIds

namespace Zmqtt

/-! ## Data -/

/-- `OutboundQoS2State`. -/
inductive OutboundQoS2State where
  | pendingPubrec
  | pendingPubcomp
  deriving Repr, DecidableEq

/-- `OutboundQoS2Flight`; the future is the one of call `call`. -/
structure OutboundQoS2Flight where
  call : Nat
  state : OutboundQoS2State
  deriving Repr, DecidableEq

/-- The tables of `SessionState` that hold packet ids of the client. A future is named by
    the call that created it. -/
structure SessionState where
  packetIds : PacketIdPool := {}
  inflightQos1 : Dict Int Nat := []
  inflightQos2Out : Dict Int OutboundQoS2Flight := []
  pendingSubs : Dict Int Nat := []
  pendingUnsubs : Dict Int Nat := []

/-- The operations that take a packet id. -/
inductive CallKind where
  | publishQos1
  | publishQos2
  | subscribe
  | unsubscribe
  deriving Repr, DecidableEq

/-- The exceptions a call can raise, besides `CancelledError`. -/
inductive CallError where
  | encode (e : PyError)
  | write
  | disconnected
  | publishError (packet : PubAck)
  | subscribeError (failures : List (String × Int))
  deriving Repr, DecidableEq

/-- An `asyncio.Future`. -/
inductive FutureState where
  | pending
  | result (packet : Packet)
  | exception (e : CallError)
  | cancelled
  deriving Repr, DecidableEq

inductive Outcome where
  | returned (packet : Packet)
  | raised (e : CallError)
  | cancelled
  deriving Repr, DecidableEq

/-- Where a call is suspended. -/
inductive Pc where
  | sending
  | waiting
  | finished (outcome : Outcome)
  deriving Repr, DecidableEq

structure Call where
  kind : CallKind
  pid : Int
  filters : List String := []
  future : FutureState := .pending
  pc : Pc
  cancelRequested : Bool := false
  deriving Repr, DecidableEq

/-- The read loop: waiting for a packet, suspended in the write of a PUBREL, or ended. -/
inductive ReadLoop where
  | reading
  | sendingPubrel
  | stopped
  deriving Repr, DecidableEq

/-- What `_dispatch` can raise. -/
inductive DispatchError where
  | protocolError (msg : String)
  | unexpectedPacket (packet : Packet)
  | disconnected (reasonCode : Int)
  | invalidState
  deriving Repr, DecidableEq

/-- `MQTTProtocol`; `written` holds the packets on the wire with the call each belongs to,
    the newest first. -/
structure Protocol where
  version : Version
  maxPublishQos : QoS := .exactlyOnce
  state : SessionState := {}
  calls : List Call := []
  readLoop : ReadLoop := .reading
  dead : Bool := false
  written : List (Packet × Option Nat) := []

/-! ## The tables -/

namespace SessionState

/-- `self._state.<table>[pid] = ...`. -/
def register (st : SessionState) (kind : CallKind) (pid : Int) (call : Nat) : SessionState :=
  match kind with
  | .publishQos1 => { st with inflightQos1 := st.inflightQos1.set pid call }
  | .publishQos2 =>
      { st with inflightQos2Out := st.inflightQos2Out.set pid ⟨call, .pendingPubrec⟩ }
  | .subscribe => { st with pendingSubs := st.pendingSubs.set pid call }
  | .unsubscribe => { st with pendingUnsubs := st.pendingUnsubs.set pid call }

/-- `self._state.<table>.pop(pid, None)` and `self._state.packet_ids.release(pid)`. -/
def popRelease (st : SessionState) (kind : CallKind) (pid : Int) : SessionState :=
  let st := { st with packetIds := st.packetIds.release pid }
  match kind with
  | .publishQos1 => { st with inflightQos1 := st.inflightQos1.pop pid }
  | .publishQos2 => { st with inflightQos2Out := st.inflightQos2Out.pop pid }
  | .subscribe => { st with pendingSubs := st.pendingSubs.pop pid }
  | .unsubscribe => { st with pendingUnsubs := st.pendingUnsubs.pop pid }

/-- The `finally` block of a call: only subscribe and unsubscribe have one. -/
def cleanup (st : SessionState) (kind : CallKind) (pid : Int) : SessionState :=
  match kind with
  | .publishQos1 | .publishQos2 => st
  | .subscribe | .unsubscribe => st.popRelease kind pid

end SessionState

namespace Protocol

/-! ## Calls -/

/-- `acquire`, register the future, encode and write: a call up to its first await. -/
def startCall (s : Protocol) (kind : CallKind) (filters : List String)
    (packetOf : Int → Packet) : Protocol :=
  if s.dead then s
  else
    match s.state.packetIds.acquire with
    | none => s
    | some (pid, pool) =>
        let i := s.calls.length
        let st := ({ s.state with packetIds := pool }).register kind pid i
        match encode (packetOf pid) s.version with
        | .error e =>
            { s with
              state := st.cleanup kind pid
              calls := s.calls ++ [{ kind, pid, filters, pc := .finished (.raised (.encode e)) }] }
        | .ok _ =>
            { s with
              state := st
              calls := s.calls ++ [{ kind, pid, filters, pc := .sending }]
              written := (packetOf pid, some i) :: s.written }

/-- `publish`. -/
def publish (s : Protocol) (packet : Publish) : Protocol :=
  if s.dead ∨ packet.qos.val > s.maxPublishQos.val then s
  else
    match packet.qos with
    | .atMostOnce =>
        match encode (.publish packet) s.version with
        | .error _ => s
        | .ok _ => { s with written := (.publish packet, none) :: s.written }
    | .atLeastOnce =>
        s.startCall .publishQos1 [] fun pid => .publish { packet with packetId := some pid }
    | .exactlyOnce =>
        s.startCall .publishQos2 [] fun pid => .publish { packet with packetId := some pid }

/-- `_send_subscribe`. -/
def sendSubscribe (s : Protocol) (filters : List SubscriptionRequest)
    (subscriptionIdentifier : Option Int) : Protocol :=
  s.startCall .subscribe (filters.map (·.topicFilter)) fun pid =>
    .subscribe ⟨pid, filters, subscriptionIdentifier.map fun i =>
      { subscriptionIdentifier := some i }⟩

/-- `_send_unsubscribe`. -/
def sendUnsubscribe (s : Protocol) (filters : List String) : Protocol :=
  s.startCall .unsubscribe filters fun pid => .unsubscribe { packetId := pid, topicFilters := filters }

/-- `_raise_on_rejected_filters`: the rejected filters with their codes. -/
def rejectedFilters (filters : List String) (codes : List Int) : List (String × Int) :=
  (filters.zip codes).filter fun fc => fc.2 ≥ 0x80

/-- What `await future` and the code after it give, once the future is done. -/
def outcomeOf (c : Call) : Outcome :=
  match c.future with
  | .pending | .cancelled => .cancelled
  | .exception e => .raised e
  | .result packet =>
      match c.kind, packet with
      | .publishQos1, .puback p =>
          if p.reasonCode ≥ 0x80 then .raised (.publishError p) else .returned packet
      | .subscribe, .suback p =>
          if rejectedFilters c.filters p.returnCodes ≠ [] then
            .raised (.subscribeError (rejectedFilters c.filters p.returnCodes))
          else .returned packet
      | _, _ => .returned packet

/-- The call ends; its `finally` block runs. -/
def finish (s : Protocol) (i : Nat) (c : Call) (outcome : Outcome) : Protocol :=
  { s with
    state := s.state.cleanup c.kind c.pid
    calls := s.calls.set i { c with pc := .finished outcome } }

/-- The event loop resumes call `i`; `written` says whether the write it waited for
    succeeded. -/
def resume (s : Protocol) (i : Nat) (written : Bool) : Protocol :=
  match s.calls[i]? with
  | none => s
  | some c =>
      match c.pc with
      | .finished _ => s
      | .sending =>
          if c.cancelRequested then s.finish i c .cancelled
          else if written then
            if c.future = .pending then
              { s with calls := s.calls.set i { c with pc := .waiting } }
            else s.finish i c (outcomeOf c)
          else s.finish i c (.raised .write)
      | .waiting =>
          if c.future = .pending then s
          else if c.cancelRequested then s.finish i c .cancelled
          else s.finish i c (outcomeOf c)

/-- `task.cancel()` on call `i`. -/
def cancel (s : Protocol) (i : Nat) : Protocol :=
  match s.calls[i]? with
  | none => s
  | some c =>
      match c.pc with
      | .finished _ => s
      | .sending => { s with calls := s.calls.set i { c with cancelRequested := true } }
      | .waiting =>
          if c.future = .pending then
            { s with calls := s.calls.set i { c with future := .cancelled } }
          else { s with calls := s.calls.set i { c with cancelRequested := true } }

/-! ## Replies -/

/-- `if not future.done(): future.set_...`. -/
def setFuture (s : Protocol) (i : Nat) (future : FutureState) : Protocol :=
  match s.calls[i]? with
  | none => s
  | some c =>
      if c.future = .pending then { s with calls := s.calls.set i { c with future } } else s

/-- `future.set_result(packet)`, which raises on a future that is done. -/
def setResult (s : Protocol) (i : Nat) (packet : Packet) : Except DispatchError Protocol :=
  match s.calls[i]? with
  | none => .error .invalidState
  | some c =>
      if c.future = .pending then
        .ok { s with calls := s.calls.set i { c with future := .result packet } }
      else .error .invalidState

/-- `_handle_puback`. -/
def handlePuback (s : Protocol) (packet : PubAck) : Except DispatchError Protocol :=
  match s.state.inflightQos1.get? packet.packetId with
  | none =>
      .error (.protocolError ("PUBACK for unknown packet_id " ++ toString packet.packetId))
  | some i =>
      .ok ({ s with state := s.state.popRelease .publishQos1 packet.packetId }.setFuture i
        (.result (.puback packet)))

/-- `_handle_pubrec`. -/
def handlePubrec (s : Protocol) (packet : PubAck) : Except DispatchError Protocol :=
  match s.state.inflightQos2Out.get? packet.packetId with
  | none =>
      .error (.protocolError ("PUBREC for unknown packet_id " ++ toString packet.packetId))
  | some flight =>
      if flight.state ≠ .pendingPubrec then
        .error (.protocolError ("PUBREC in wrong state OutboundQoS2State.PENDING_PUBCOMP for " ++
          "packet_id " ++ toString packet.packetId))
      else if packet.reasonCode ≥ 0x80 then
        .ok ({ s with state := s.state.popRelease .publishQos2 packet.packetId }.setFuture
          flight.call (.exception (.publishError packet)))
      else
        .ok { s with
          state := { s.state with
            inflightQos2Out := s.state.inflightQos2Out.set packet.packetId
              { flight with state := .pendingPubcomp } }
          readLoop := .sendingPubrel
          written := (.pubrel { packetId := packet.packetId }, some flight.call) :: s.written }

/-- `_handle_pubcomp`. -/
def handlePubcomp (s : Protocol) (packet : PubAck) : Except DispatchError Protocol :=
  match s.state.inflightQos2Out.get? packet.packetId with
  | none =>
      .error (.protocolError ("PUBCOMP for unknown packet_id " ++ toString packet.packetId))
  | some flight =>
      .ok ({ s with state := s.state.popRelease .publishQos2 packet.packetId }.setFuture
        flight.call (.result (.pubcomp packet)))

/-- `_handle_suback`. -/
def handleSuback (s : Protocol) (packet : SubAck) : Except DispatchError Protocol :=
  match s.state.pendingSubs.get? packet.packetId with
  | none =>
      .error (.protocolError ("SUBACK for unknown packet_id " ++ toString packet.packetId))
  | some i => s.setResult i (.suback packet)

/-- `_handle_unsuback`. -/
def handleUnsuback (s : Protocol) (packet : UnsubAck) : Except DispatchError Protocol :=
  match s.state.pendingUnsubs.get? packet.packetId with
  | none =>
      .error (.protocolError ("UNSUBACK for unknown packet_id " ++ toString packet.packetId))
  | some i => s.setResult i (.unsuback packet)

/-- `_dispatch`. PUBLISH and PUBREL go to the inbound flow and PINGRESP to the ping waiters;
    neither touches the tables here. -/
def dispatch (s : Protocol) (packet : Packet) : Except DispatchError Protocol :=
  match packet with
  | .publish _ | .pubrel _ | .pingresp => .ok s
  | .puback p => s.handlePuback p
  | .pubrec p => s.handlePubrec p
  | .pubcomp p => s.handlePubcomp p
  | .suback p => s.handleSuback p
  | .unsuback p => s.handleUnsuback p
  | .disconnect p => .error (.disconnected p.reasonCode)
  | .auth _ =>
      if s.version ≠ .v5 then
        .error (.protocolError "Received AUTH packet in MQTT 3.1.1 session")
      else .ok s
  | .connect _ | .connack _ | .subscribe _ | .unsubscribe _ | .pingreq =>
      .error (.unexpectedPacket packet)

/-- The read loop takes its next packet; an exception ends it. -/
def receive (s : Protocol) (packet : Packet) : Protocol :=
  match s.readLoop with
  | .reading =>
      match s.dispatch packet with
      | .ok s' => s'
      | .error _ => { s with readLoop := .stopped }
  | .sendingPubrel | .stopped => s

/-- The read loop is resumed after the write of a PUBREL. -/
def resumeReadLoop (s : Protocol) (written : Bool) : Protocol :=
  match s.readLoop with
  | .sendingPubrel => { s with readLoop := if written then .reading else .stopped }
  | .reading | .stopped => s

/-- The calls whose futures are in one of the four tables. -/
def awaited (st : SessionState) : List Nat :=
  st.pendingSubs.map Prod.snd ++ st.pendingUnsubs.map Prod.snd ++ st.inflightQos1.map Prod.snd ++
    st.inflightQos2Out.map fun item => item.2.call

/-- `run()` exits: the read loop has ended, every waiting future fails
    (`_cancel_pending`). -/
def runExit (s : Protocol) : Protocol :=
  (awaited s.state).foldl (fun s i => s.setFuture i (.exception .disconnected))
    { s with dead := true, readLoop := .stopped }

end Protocol

/-! ## Runs -/

/-- What can happen on one connection, between two awaits of any task. -/
inductive ProtocolEvent where
  | publish (packet : Publish)
  | sendSubscribe (filters : List SubscriptionRequest) (subscriptionIdentifier : Option Int)
  | sendUnsubscribe (filters : List String)
  | resume (i : Nat) (written : Bool)
  | cancel (i : Nat)
  | receive (packet : Packet)
  | resumeReadLoop (written : Bool)
  | runExit

namespace Protocol

def step (s : Protocol) : ProtocolEvent → Protocol
  | .publish packet => s.publish packet
  | .sendSubscribe filters subscriptionIdentifier => s.sendSubscribe filters subscriptionIdentifier
  | .sendUnsubscribe filters => s.sendUnsubscribe filters
  | .resume i written => s.resume i written
  | .cancel i => s.cancel i
  | .receive packet => s.receive packet
  | .resumeReadLoop written => s.resumeReadLoop written
  | .runExit => s.runExit

/-- The protocol right after the handshake, with a fresh `SessionState`. -/
def fresh (version : Version) (maxPublishQos : QoS) : Protocol := { version, maxPublishQos }

end Protocol

end Zmqtt
