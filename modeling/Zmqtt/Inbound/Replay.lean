/-
  The buffered replay state of a resumed session (`_PersistentReplayBuffered` in
  `_internal/inbound.py`): the messages that wait for a local recipient, the counters kept
  beside them, and the task inside the delivery lock.

  A message is a received PUBLISH with the number of its receipt. The local deques of
  `_deliver_pending` belong to the task that holds the lock; they are kept in the object
  while that task is suspended.
-/
import Zmqtt.Lib.Dict
import Zmqtt.Lib.Machine
import Zmqtt.Topics.SubscriptionIndex
import Zmqtt.Packets.Types

namespace Zmqtt

/-! ## Messages and recipients -/

/-- A received PUBLISH, its number in order of receipt, and how many PUBREL packets were
    received for its id before it. -/
structure Received where
  num : Nat
  epoch : Nat
  packet : Publish
  deriving Repr, DecidableEq

/-- `InboundRecipient`; a claimed request is named by a number. -/
structure InboundRecipient where
  message : Received
  request : Option Nat := none
  subscription : Option Item := none
  deriving Repr, DecidableEq

namespace InboundRecipient

/-- `auto_ack`. -/
def autoAck (r : InboundRecipient) : Bool :=
  r.request.isSome ||
    match r.subscription with
    | none => true
    | some (_, entry) => entry.autoAck

/-- Neither a request nor a subscription. -/
def isNobody (r : InboundRecipient) : Bool := r.request.isNone && r.subscription.isNone

/-- The queue of the selected subscription. -/
def queue (r : InboundRecipient) : Option Nat :=
  match r.request with
  | some _ => none
  | none => r.subscription.map fun item => item.2.queue

end InboundRecipient

/-- The acknowledgements of the receive flow. -/
inductive AckKind where
  | puback
  | pubrec
  | pubcomp
  deriving Repr, DecidableEq

/-- The callback that `_deliver` stores in a message. -/
inductive AckCallback where
  | puback (pid : Int) (acked : Bool) (recipient : InboundRecipient)
  | pubrec (pid : Int) (recipient : InboundRecipient)
  deriving Repr, DecidableEq

def AckCallback.recipient : AckCallback → InboundRecipient
  | puback _ _ recipient => recipient
  | pubrec _ recipient => recipient

/-- The awaits of a handler: `send_packet`, and `_deliver`. -/
inductive Act where
  | send (kind : AckKind) (pid : Int) (recipient : InboundRecipient)
  | deliver (recipient : InboundRecipient) (callback : Option AckCallback)
  deriving Repr, DecidableEq

def Act.recipient : Act → InboundRecipient
  | send _ _ recipient => recipient
  | deliver recipient _ => recipient

/-! ## The object -/

/-- The callers that take the delivery lock. -/
inductive Caller where
  | drain
  | expire
  deriving Repr, DecidableEq

/-- The task inside the lock, suspended in the delivery of `current`; `rest` is what is left
    of that delivery, `cancelled` that `task.cancel()` was called on it. -/
structure Delivery where
  caller : Caller
  unmatched : List Received
  pending : List Received
  current : Received
  rest : List Act
  cancelled : Bool := false
  deriving Repr, DecidableEq

/-- `_expiration_task`. -/
inductive ExpirationTask where
  | none
  | sleeping
  | running
  deriving Repr, DecidableEq

/-- `_PersistentReplayBuffered`. -/
structure Buffered where
  publishes : List Received := []
  packetIds : Finset Int := ∅
  topics : Dict String Int := []
  messageCount : Int := 0
  expirationTask : ExpirationTask := .none
  waiters : List Caller := []
  holder : Option Delivery := none
  deriving DecidableEq

/-- What `accept` decides on a message. -/
inductive Accepted where
  | recipient (r : InboundRecipient)
  | buffered
  | known
  | overflow
  deriving Repr, DecidableEq

namespace Buffered

/-- The part of `accept` that takes the message. -/
def append (b : Buffered) (m : Received) : Buffered :=
  { b with
    publishes := b.publishes ++ [m]
    messageCount := b.messageCount + 1
    topics := b.topics.set m.packet.topic ((b.topics.get? m.packet.topic).getD 0 + 1)
    packetIds :=
      match m.packet.packetId with
      | some pid => insert pid b.packetIds
      | none => b.packetIds
    expirationTask := if b.expirationTask = .none then .sleeping else b.expirationTask }

/-- `accept`. -/
def accept (b : Buffered) (bufferSize : Nat) (m : Received) (r : InboundRecipient) :
    Buffered × Accepted :=
  if r.request.isSome then (b, .recipient r)
  else if r.subscription.isSome ∧ (b.topics.get? m.packet.topic).isNone then (b, .recipient r)
  else if ∃ pid ∈ m.packet.packetId, pid ∈ b.packetIds then (b, .known)
  else if bufferSize ≠ 0 ∧ b.messageCount ≥ bufferSize then (b, .overflow)
  else (b.append m, .buffered)

/-- `_discard`; `false` stands for the `KeyError`, which is raised after the counter was
    lowered. -/
def discard (b : Buffered) (m : Received) : Buffered × Bool :=
  match b.topics.get? m.packet.topic with
  | none => ({ b with messageCount := b.messageCount - 1 }, false)
  | some count =>
      ({ b with
          messageCount := b.messageCount - 1
          topics :=
            if count - 1 = 0 then b.topics.pop m.packet.topic
            else b.topics.set m.packet.topic (count - 1)
          packetIds :=
            match m.packet.packetId with
            | some pid => b.packetIds.erase pid
            | none => b.packetIds }, true)

/-- The four containers emptied, as `clear` and `_drop_pending` do. -/
def empty (b : Buffered) : Buffered :=
  { b with publishes := [], packetIds := ∅, topics := [], messageCount := 0 }

/-- `_cancel_expiration`. A task that waits for the lock is gone; one that holds it is told
    when it is resumed. -/
def cancelExpiration (b : Buffered) : Buffered :=
  match b.expirationTask with
  | .none => b
  | .sleeping => { b with expirationTask := .none }
  | .running =>
      { b with
        expirationTask := .none
        waiters := b.waiters.filter fun caller => caller ≠ .expire
        holder := b.holder.map fun h => if h.caller = .expire then { h with cancelled := true } else h }

/-- The end of the `_expire_after_timeout` task. -/
def endExpiration (b : Buffered) (caller : Caller) : Buffered :=
  match caller with
  | .drain => b
  | .expire =>
      { b with expirationTask := if b.expirationTask = .running then .none else b.expirationTask }

/-- The `finally` block of `_deliver_pending`, at the end of which the lock is released. -/
def putBack (b : Buffered) (ms : List Received) : Buffered :=
  { b with publishes := ms ++ b.publishes, holder := none }

/-- The messages the object and the task inside its lock hold. -/
def held (b : Buffered) : List Received :=
  b.publishes ++
    match b.holder with
    | none => []
    | some h => h.unmatched ++ h.pending

end Buffered

end Zmqtt
