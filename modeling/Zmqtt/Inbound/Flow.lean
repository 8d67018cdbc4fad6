/-
  The inbound publish flow of one connection (`InboundPublishFlow` in
  `_internal/inbound.py`, `Message.ack` in `_internal/types/message.py`).

  Tasks interleave at await points only. The awaits of a handler are `send_packet` (the
  packet is on the wire, `drain` may suspend) and `queue.put` (suspends while the queue is
  full); a handler up to its next suspension is one step, and what is left of it is kept as
  a list of `Act`. The read loop runs one handler at a time; `drain` and `expire` run in
  other tasks, under the lock of their object, and `Message.ack` in any task. What the
  request router claims, and which writes suspend, is chosen by the environment.

  `trace` is the history of the connection, the newest entry first. It is read by no
  operation, except that a received PUBLISH is numbered and counts the PUBREL packets of
  its id.
-/
import Zmqtt.Inbound.Replay

namespace Zmqtt

/-- `InboundQoS2Flight`; its packet id is the key, its state has one value. -/
structure InboundQoS2Flight where
  recipient : InboundRecipient
  delivered : Bool := false
  deriving Repr, DecidableEq

/-- A `Message` that was put into a queue; the other fields are those of the PUBLISH. -/
structure Message where
  received : Received
  ackCallback : Option AckCallback := none
  resolved : Bool := false
  deriving Repr, DecidableEq

/-- `_ReplayState`; a buffered state is named by its index. -/
inductive ReplayState where
  | noSession
  | idle
  | buffered (i : Nat)
  deriving Repr, DecidableEq

/-- What the handlers raise. -/
inductive InboundError where
  | protocolError (msg : String)
  | valueError (msg : String)
  deriving Repr, DecidableEq

/-- The read loop: waiting for a packet, suspended in a handler, or ended. -/
inductive Reader where
  | reading
  | suspended (acts : List Act)
  | stopped (e : Option InboundError)
  deriving Repr, DecidableEq

def Reader.acts : Reader → List Act
  | suspended acts => acts
  | reading | stopped _ => []

def Reader.isStopped : Reader → Bool
  | stopped _ => true
  | reading | suspended _ => false

inductive TraceEntry where
  | publish (m : Received)
  | pubrel (pid : Int)
  | buffered (m : Received)
  | dropped (m : Received)
  | started (r : InboundRecipient)
  | enqueued (queue : Nat) (m : Received)
  | requested (request : Nat) (m : Received)
  | acked (m : Received)
  | sent (kind : AckKind) (pid : Int) (r : InboundRecipient)
  deriving Repr, DecidableEq

/-- What the environment decides during a step, by message number. -/
structure Environment where
  claim : Nat → Option Nat := fun _ => none
  stalls : Nat → Bool := fun _ => false

/-- `InboundPublishFlow` with the inbound part of `SessionState`, the queues and the tasks. -/
structure InboundPublishFlow where
  bufferSize : Nat
  maxsize : Nat → Nat
  subscriptions : SubscriptionIndex := {}
  inflightQos2In : Dict Int InboundQoS2Flight := []
  pendingAckQos2In : Finset Int := ∅
  replay : ReplayState := .noSession
  buffers : List Buffered := []
  queues : Nat → List Nat := fun _ => []
  messages : List Message := []
  reader : Reader := .reading
  received : Nat := 0
  trace : List TraceEntry := []

namespace InboundPublishFlow

def log (f : InboundPublishFlow) (entry : TraceEntry) : InboundPublishFlow :=
  { f with trace := entry :: f.trace }

def setBuffer (f : InboundPublishFlow) (i : Nat) (b : Buffered) : InboundPublishFlow :=
  { f with buffers := f.buffers.set i b }

/-! ## Recipients -/

/-- `_select_subscription`. -/
def selectSubscription (f : InboundPublishFlow) (publish : Publish) : SubscriptionSelection :=
  match publish.properties.bind fun p => p.subscriptionIdentifier with
  | none => f.subscriptions.select publish.topic
  | some identifier => f.subscriptions.selectByIdentifier publish.topic identifier

/-- `select_recipient`. -/
def selectRecipient (f : InboundPublishFlow) (env : Environment) (m : Received) :
    InboundRecipient :=
  match env.claim m.num with
  | some request => { message := m, request := some request }
  | none => { message := m, subscription := (f.selectSubscription m.packet).recipient }

/-- `replay.contains_packet_id`. -/
def replayContains (f : InboundPublishFlow) (pid : Int) : Prop :=
  match f.replay with
  | .noSession | .idle => False
  | .buffered i => ∃ b ∈ f.buffers[i]?, pid ∈ b.packetIds

instance (f : InboundPublishFlow) (pid : Int) : Decidable (f.replayContains pid) := by
  unfold replayContains
  cases f.replay <;> infer_instance

/-- `_select_recipient_or_buffer`. -/
def selectRecipientOrBuffer (f : InboundPublishFlow) (env : Environment) (m : Received) :
    InboundPublishFlow × Accepted :=
  let r := f.selectRecipient env m
  match f.replay with
  | .noSession => (f, .recipient r)
  | .idle =>
      if r.isNobody then
        let (b, accepted) := Buffered.accept {} f.bufferSize m r
        ({ f with
            replay := .buffered f.buffers.length
            buffers := f.buffers ++ [b]
            trace := .buffered m :: f.trace }, accepted)
      else (f, .recipient r)
  | .buffered i =>
      match f.buffers[i]? with
      | none => (f, .recipient r)
      | some b =>
          match b.accept f.bufferSize m r with
          | (b, .buffered) => ((f.setBuffer i b).log (.buffered m), .buffered)
          | (_, accepted) => (f, accepted)

/-! ## Deliveries -/

/-- `queue.full()`. -/
def queueFull (f : InboundPublishFlow) (queue : Nat) : Bool :=
  f.maxsize queue ≠ 0 && f.maxsize queue ≤ (f.queues queue).length

/-- `queue.put_nowait(message)`. -/
def enqueue (f : InboundPublishFlow) (queue : Nat) (message : Message) : InboundPublishFlow :=
  { f with
    messages := f.messages ++ [message]
    queues := Function.update f.queues queue (f.queues queue ++ [f.messages.length])
    trace := .enqueued queue message.received :: f.trace }

/-- `_deliver` has to wait for a free slot in the queue. -/
def putWaits (f : InboundPublishFlow) (r : InboundRecipient) : Bool :=
  match r.request, r.subscription with
  | none, some (_, entry) => f.queueFull entry.queue
  | _, _ => false

/-- `_deliver`, when it need not wait. -/
def handOver (f : InboundPublishFlow) (r : InboundRecipient) (callback : Option AckCallback) :
    InboundPublishFlow :=
  match r.request, r.subscription with
  | some request, _ => f.log (.requested request r.message)
  | none, none => f
  | none, some (_, entry) =>
      f.enqueue entry.queue
        { received := r.message, ackCallback := if entry.autoAck then none else callback }

/-- A handler from its current await to its next suspension, and what is left of it there. -/
def runActs (env : Environment) : List Act → InboundPublishFlow →
    InboundPublishFlow × Option (List Act)
  | [], f => (f, none)
  | .send kind pid r :: acts, f =>
      if env.stalls r.message.num then (f.log (.sent kind pid r), some acts)
      else runActs env acts (f.log (.sent kind pid r))
  | .deliver r callback :: acts, f =>
      if f.putWaits r then (f, some (.deliver r callback :: acts))
      else runActs env acts (f.handOver r callback)

/-- `_deliver_qos1_publish`. -/
def deliverQos1Publish (m : Received) (r : InboundRecipient) : Except InboundError (List Act) :=
  match m.packet.packetId with
  | none => .error (.valueError "Cannot publish without packet id")
  | some pid =>
      if r.autoAck then .ok [.deliver r none, .send .puback pid r]
      else .ok [.deliver r (some (.puback pid false r))]

/-- `_accept_qos2_publish`. -/
def acceptQos2Publish (f : InboundPublishFlow) (m : Received) (r : InboundRecipient) :
    Except InboundError (InboundPublishFlow × List Act) :=
  match m.packet.packetId with
  | none => .error (.valueError "Cannot publish without packet id")
  | some pid =>
      let f := f.log (.started r)
      if r.autoAck then
        .ok ({ f with inflightQos2In := f.inflightQos2In.set pid { recipient := r } },
          [.send .pubrec pid r])
      else
        .ok ({ f with pendingAckQos2In := insert pid f.pendingAckQos2In },
          [.deliver r (some (.pubrec pid r))])

/-! ## Packets -/

/-- `_handle_qos1_publish`. -/
def handleQos1Publish (f : InboundPublishFlow) (env : Environment) (m : Received) :
    Except InboundError (InboundPublishFlow × List Act) :=
  match m.packet.packetId with
  | none => .error (.valueError "Cannot publish without packet id")
  | some pid =>
      if f.replayContains pid then .ok (f, [])
      else
        match f.selectRecipientOrBuffer env m with
        | (f, .recipient r) => (deliverQos1Publish m r).map fun acts => (f, acts)
        | (f, .buffered) | (f, .known) => .ok (f, [])
        | (_, .overflow) => .error (.protocolError
            s!"Persistent-session replay buffer limit of {f.bufferSize} messages exceeded")

/-- `_handle_qos2_publish`. -/
def handleQos2Publish (f : InboundPublishFlow) (env : Environment) (m : Received) :
    Except InboundError (InboundPublishFlow × List Act) :=
  match m.packet.packetId with
  | none => .error (.valueError "Cannot publish without packet id")
  | some pid =>
      match f.inflightQos2In.get? pid with
      | some flight => .ok (f, [.send .pubrec pid flight.recipient])
      | none =>
          if pid ∈ f.pendingAckQos2In ∨ f.replayContains pid then .ok (f, [])
          else
            match f.selectRecipientOrBuffer env m with
            | (f, .recipient r) => f.acceptQos2Publish m r
            | (f, .buffered) | (f, .known) => .ok (f, [])
            | (_, .overflow) => .error (.protocolError
                s!"Persistent-session replay buffer limit of {f.bufferSize} messages exceeded")

/-- `handle_publish`. -/
def handlePublish (f : InboundPublishFlow) (env : Environment) (m : Received) :
    Except InboundError (InboundPublishFlow × List Act) :=
  match m.packet.qos with
  | .atMostOnce =>
      match f.selectRecipientOrBuffer env m with
      | (f, .recipient r) => .ok (f, [.deliver r none])
      | (f, .buffered) | (f, .known) => .ok (f, [])
      | (_, .overflow) => .error (.protocolError
          s!"Persistent-session replay buffer limit of {f.bufferSize} messages exceeded")
  | .atLeastOnce => f.handleQos1Publish env m
  | .exactlyOnce => f.handleQos2Publish env m

/-- `self._state.inflight_qos2_in.pop(pid)`. -/
def popFlight (f : InboundPublishFlow) (pid : Int) : InboundPublishFlow :=
  { f with inflightQos2In := f.inflightQos2In.pop pid }

/-- `handle_pubrel`. -/
def handlePubrel (f : InboundPublishFlow) (pid : Int) :
    Except InboundError (InboundPublishFlow × List Act) :=
  match f.inflightQos2In.get? pid with
  | none => .error (.protocolError s!"PUBREL for unknown packet_id {pid}")
  | some flight =>
      .ok (f.popFlight pid,
        .send .pubcomp pid flight.recipient ::
          if flight.delivered then [] else [.deliver flight.recipient none])

/-- The read loop runs a handler up to its next suspension. -/
def runReader (f : InboundPublishFlow) (env : Environment) (acts : List Act) :
    InboundPublishFlow :=
  match runActs env acts f with
  | (f, none) => { f with reader := .reading }
  | (f, some acts) => { f with reader := .suspended acts }

/-- A handler after its first state changes. -/
def dispatch (f : InboundPublishFlow) (env : Environment)
    (handled : Except InboundError (InboundPublishFlow × List Act)) : InboundPublishFlow :=
  match handled with
  | .error e => { f with reader := .stopped (some e) }
  | .ok (f, acts) => f.runReader env acts

/-- The PUBREL packets received for an id. -/
def epoch (f : InboundPublishFlow) (pid : Option Int) : Nat :=
  match pid with
  | none => 0
  | some pid => f.trace.count (.pubrel pid)

/-- The message of the next PUBLISH. -/
def nextReceived (f : InboundPublishFlow) (packet : Publish) : Received :=
  { num := f.received, epoch := f.epoch packet.packetId, packet }

/-- The PUBLISH is read. -/
def receive (f : InboundPublishFlow) (packet : Publish) : InboundPublishFlow :=
  { f with received := f.received + 1, trace := .publish (f.nextReceived packet) :: f.trace }

def receivePublish (f : InboundPublishFlow) (env : Environment) (packet : Publish) :
    InboundPublishFlow :=
  match f.reader with
  | .reading =>
      (f.receive packet).dispatch env
        ((f.receive packet).handlePublish env (f.nextReceived packet))
  | .suspended _ | .stopped _ => f

def receivePubrel (f : InboundPublishFlow) (env : Environment) (pid : Int) :
    InboundPublishFlow :=
  match f.reader with
  | .reading => (f.log (.pubrel pid)).dispatch env ((f.log (.pubrel pid)).handlePubrel pid)
  | .suspended _ | .stopped _ => f

def resumeReader (f : InboundPublishFlow) (env : Environment) : InboundPublishFlow :=
  match f.reader with
  | .suspended acts => f.runReader env acts
  | .reading | .stopped _ => f

/-! ## `Message.ack` -/

/-- The callback, up to its write. -/
def runCallback (f : InboundPublishFlow) : Option AckCallback → InboundPublishFlow
  | none => f
  | some (.puback pid acked r) => if acked then f else f.log (.sent .puback pid r)
  | some (.pubrec pid r) =>
      { f with
        pendingAckQos2In := f.pendingAckQos2In.erase pid
        inflightQos2In := f.inflightQos2In.set pid { recipient := r, delivered := true }
        trace := .sent .pubrec pid r :: f.trace }

/-- `nonlocal acked; acked = True`. -/
def markAcked : Option AckCallback → Option AckCallback
  | some (.puback pid _ r) => some (.puback pid true r)
  | callback => callback

def ack (f : InboundPublishFlow) (k : Nat) : InboundPublishFlow :=
  match f.messages[k]? with
  | none => f
  | some message =>
      if message.resolved then f
      else
        ({ f with
            messages := f.messages.set k
              { message with resolved := true, ackCallback := markAcked message.ackCallback }
            trace := .acked message.received :: f.trace }).runCallback message.ackCallback

end InboundPublishFlow

end Zmqtt
