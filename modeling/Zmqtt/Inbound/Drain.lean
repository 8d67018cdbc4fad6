/-
  `drain`, `expire` and `clear` on the replay state, and the steps of the inbound flow.

  `_deliver_pending` runs up to the first delivery that suspends. In one such stretch no
  other task runs, so nothing is appended to `_publishes` and the outer loop makes at most
  one more pass after the one it is in.
-/
import Zmqtt.Inbound.Flow

namespace Zmqtt

/-- Where a pass of `_deliver_pending` stops: suspended in a delivery, at the end of the
    loop, or with an exception. -/
inductive PassResult where
  | suspended (unmatched pending : List Received) (current : Received) (rest : List Act)
  | finished (unmatched : List Received)
  | failed (unmatched pending : List Received)
  deriving Repr, DecidableEq

namespace InboundPublishFlow

/-- `deliver_replay`, up to its first suspension. -/
def deliverReplay (f : InboundPublishFlow) (env : Environment) (m : Received)
    (r : InboundRecipient) : Except InboundError (InboundPublishFlow × Option (List Act)) :=
  match m.packet.qos with
  | .atMostOnce => .ok (runActs env [.deliver r none] f)
  | .atLeastOnce => (deliverQos1Publish m r).map fun acts => runActs env acts f
  | .exactlyOnce => (f.acceptQos2Publish m r).map fun (f, acts) => runActs env acts f

/-- The message stays unmatched: no recipient, or a full queue. -/
def mustWait (f : InboundPublishFlow) (r : InboundRecipient) : Bool :=
  r.isNobody ||
    match r.subscription with
    | none => false
    | some (_, entry) => f.queueFull entry.queue

def discard (f : InboundPublishFlow) (i : Nat) (m : Received) : InboundPublishFlow × Bool :=
  match f.buffers[i]? with
  | none => (f, false)
  | some b => (f.setBuffer i (b.discard m).1, (b.discard m).2)

/-- The inner loop of `_deliver_pending`. -/
def deliverPass (env : Environment) (i : Nat) : List Received → List Received →
    InboundPublishFlow → InboundPublishFlow × PassResult
  | unmatched, [], f => (f, .finished unmatched)
  | unmatched, m :: pending, f =>
      if f.mustWait (f.selectRecipient env m) then deliverPass env i (unmatched ++ [m]) pending f
      else
        match f.deliverReplay env m (f.selectRecipient env m) with
        | .error _ => (f, .failed (unmatched ++ [m]) pending)
        | .ok (f, some rest) => (f, .suspended unmatched pending m rest)
        | .ok (f, none) =>
            match f.discard i m with
            | (f, true) => deliverPass env i unmatched pending f
            | (f, false) => (f, .failed unmatched pending)

/-- `_publishes` of an object. -/
def publishes (f : InboundPublishFlow) (i : Nat) : List Received :=
  match f.buffers[i]? with
  | none => []
  | some b => b.publishes

def setPublishes (f : InboundPublishFlow) (i : Nat) (publishes : List Received) :
    InboundPublishFlow :=
  match f.buffers[i]? with
  | none => f
  | some b => f.setBuffer i { b with publishes }

/-- `_deliver_pending`, from the rest of a pass on. -/
def deliverPending (f : InboundPublishFlow) (env : Environment) (i : Nat)
    (unmatched pending : List Received) : InboundPublishFlow × PassResult :=
  match deliverPass env i unmatched pending f with
  | (f, .finished unmatched) =>
      deliverPass env i unmatched (f.publishes i) (f.setPublishes i [])
  | result => result

/-- The messages an object drops. -/
def logDropped (f : InboundPublishFlow) (ms : List Received) : InboundPublishFlow :=
  { f with trace := ms.map TraceEntry.dropped ++ f.trace }

/-- `if self._replay is replay: self._replay = next_replay`. -/
def leaveBuffer (f : InboundPublishFlow) (i : Nat) (next : ReplayState) : InboundPublishFlow :=
  if f.replay = .buffered i then { f with replay := next } else f

/-- `drain` after `_deliver_pending`. -/
def finishDrain (f : InboundPublishFlow) (i : Nat) (b : Buffered) : InboundPublishFlow :=
  if b.messageCount = 0 then (f.setBuffer i b.cancelExpiration).leaveBuffer i .idle
  else f.setBuffer i b

/-- `expire` after `_deliver_pending`. -/
def finishExpire (f : InboundPublishFlow) (i : Nat) (b : Buffered) : InboundPublishFlow :=
  ((f.logDropped b.publishes).setBuffer i (b.empty.endExpiration .expire)).leaveBuffer i
    (if b.messageCount = 0 then .idle else .noSession)

/-- The task inside the lock suspends or leaves it; the `finally` block puts the messages
    back that were not delivered. -/
def settle (f : InboundPublishFlow) (i : Nat) (caller : Caller) (result : PassResult) :
    InboundPublishFlow :=
  match f.buffers[i]? with
  | none => f
  | some b =>
      match result with
      | .suspended unmatched pending current rest =>
          f.setBuffer i { b with holder := some { caller, unmatched, pending, current, rest } }
      | .failed unmatched pending =>
          f.setBuffer i ((b.putBack (unmatched ++ pending)).endExpiration caller)
      | .finished unmatched =>
          match caller with
          | .drain => f.finishDrain i (b.putBack unmatched)
          | .expire => f.finishExpire i (b.putBack unmatched)

/-- The task takes the delivery lock. -/
def acquireLock (f : InboundPublishFlow) (env : Environment) (i : Nat) : InboundPublishFlow :=
  match f.buffers[i]? with
  | none => f
  | some b =>
      match b.holder, b.waiters with
      | none, caller :: waiters =>
          let (f, result) := (f.setBuffer i { b with waiters }).deliverPending env i [] []
          f.settle i caller result
      | _, _ => f

/-- The suspended delivery is interrupted: the task was cancelled, or the write failed. -/
def interruptDelivery (f : InboundPublishFlow) (i : Nat) : InboundPublishFlow :=
  match f.buffers[i]? with
  | none => f
  | some b =>
      match b.holder with
      | none => f
      | some h =>
          (f.setBuffer i { b with holder := none }).settle i h.caller
            (.failed (h.unmatched ++ [h.current]) h.pending)

/-- The task inside the lock goes on. -/
def resumeDelivery (f : InboundPublishFlow) (env : Environment) (i : Nat) :
    InboundPublishFlow :=
  match f.buffers[i]? with
  | none => f
  | some b =>
      match b.holder with
      | none => f
      | some h =>
          if h.cancelled then f.interruptDelivery i
          else
            match runActs env h.rest (f.setBuffer i { b with holder := none }) with
            | (f, some rest) => f.settle i h.caller (.suspended h.unmatched h.pending h.current rest)
            | (f, none) =>
                match f.discard i h.current with
                | (f, false) => f.settle i h.caller (.failed h.unmatched h.pending)
                | (f, true) =>
                    let (f, result) := f.deliverPending env i h.unmatched h.pending
                    f.settle i h.caller result

/-! ## Calls -/

/-- The read loop is cancelled, or its read or write fails. -/
def interruptReader (f : InboundPublishFlow) : InboundPublishFlow :=
  match f.reader with
  | .stopped _ => f
  | .reading | .suspended _ => { f with reader := .stopped none }

/-- `drain()`, up to the lock. -/
def drain (f : InboundPublishFlow) : InboundPublishFlow :=
  match f.replay with
  | .noSession | .idle => f
  | .buffered i =>
      match f.buffers[i]? with
      | none => f
      | some b => f.setBuffer i { b with waiters := b.waiters ++ [.drain] }

/-- `_expire_after_timeout` wakes up: `expire_replay`, up to the lock. -/
def expireReplay (f : InboundPublishFlow) (i : Nat) : InboundPublishFlow :=
  match f.buffers[i]? with
  | none => f
  | some b =>
      if b.expirationTask = .sleeping then
        if f.replay = .buffered i then
          f.setBuffer i { b with expirationTask := .running, waiters := b.waiters ++ [.expire] }
        else f.setBuffer i { b with expirationTask := .none }
      else f

/-- A task that waits for the lock is cancelled. -/
def cancelWaiter (f : InboundPublishFlow) (i k : Nat) : InboundPublishFlow :=
  match f.buffers[i]? with
  | none => f
  | some b =>
      match b.waiters[k]? with
      | none => f
      | some caller =>
          f.setBuffer i ({ b with waiters := b.waiters.eraseIdx k }.endExpiration caller)

/-- `clear`. -/
def clear (f : InboundPublishFlow) : InboundPublishFlow :=
  match f.replay with
  | .noSession => f
  | .idle => { f with replay := .noSession }
  | .buffered i =>
      match f.buffers[i]? with
      | none => { f with replay := .noSession }
      | some b =>
          { (f.logDropped b.publishes).setBuffer i b.cancelExpiration.empty with
            replay := .noSession }

/-- `begin_session`. -/
def beginSession (f : InboundPublishFlow) (sessionPresent : Bool) : InboundPublishFlow :=
  { f.clear with replay := if sessionPresent then .idle else .noSession }

/-- A new connection, after CONNACK. -/
def fresh (bufferSize : Nat) (maxsize : Nat → Nat) (sessionPresent : Bool) :
    InboundPublishFlow :=
  ({ bufferSize, maxsize } : InboundPublishFlow).beginSession sessionPresent

end InboundPublishFlow

/-! ## Steps -/

/-- The steps of the tasks of one connection. -/
inductive InboundEvent where
  | publish (packet : Publish) (env : Environment)
  | pubrel (pid : Int) (env : Environment)
  | resumeReader (env : Environment)
  | interruptReader
  | ack (k : Nat)
  | get (queue : Nat)
  | subscriptions (index : SubscriptionIndex)
  | drain
  | expire (i : Nat)
  | cancelWaiter (i k : Nat)
  | acquireLock (i : Nat) (env : Environment)
  | resumeDelivery (i : Nat) (env : Environment)
  | interruptDelivery (i : Nat)
  | clear

namespace InboundPublishFlow

def step (f : InboundPublishFlow) : InboundEvent → InboundPublishFlow
  | .publish packet env => f.receivePublish env packet
  | .pubrel pid env => f.receivePubrel env pid
  | .resumeReader env => f.resumeReader env
  | .interruptReader => f.interruptReader
  | .ack k => f.ack k
  | .get queue => { f with queues := Function.update f.queues queue (f.queues queue).tail }
  | .subscriptions index => { f with subscriptions := index }
  | .drain => f.drain
  | .expire i => f.expireReplay i
  | .cancelWaiter i k => f.cancelWaiter i k
  | .acquireLock i env => f.acquireLock env i
  | .resumeDelivery i env => f.resumeDelivery env i
  | .interruptDelivery i => f.interruptDelivery i
  | .clear => f.clear

end InboundPublishFlow

end Zmqtt
