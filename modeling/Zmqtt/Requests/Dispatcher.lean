/-
  `_RequestDispatcher` (`_internal/request_response.py`): pending requests by response topic
  and correlation data, the shared interest in each response topic, the bound on the number of
  requests, and the claims on messages for requests.

  Requests, interests, connections, `add_response_observer` tasks and callers are objects,
  named by their numbers. A caller is suspended in the semaphore, in `asyncio.shield(ready)`
  or in `remove_response_observer`. `asyncio.Semaphore` is first in, first out: a permit that
  is released belongs to the first task that waits for one, which runs later. An await on a
  future that is done does not suspend.

  `add_response_observer` and `remove_response_observer` hold the guard of the topic on their
  connection, first in, first out; inside it they change the set of observers at once and may
  then wait for the broker. Calls of the application on the same topic only delay them.

  `log` is the history of claims and deliveries, the newest entry first; no operation reads it.
-/
import Zmqtt.Lib.Tasks
import Zmqtt.Inbound.Flow

namespace Zmqtt

/-- `_RequestKey`: response topic and correlation data. -/
abbrev RequestKey := String × Bytes

/-- The future of a request. -/
inductive RequestFuture where
  | pending
  | result (m : Received)
  | disconnected
  | cancelled
  deriving Repr, DecidableEq

/-- `_PendingRequest`. -/
structure PendingRequest where
  key : RequestKey
  future : RequestFuture := .pending
  closed : Bool := false
  claimed : Bool := false
  deriving Repr, DecidableEq

/-- `_TopicInterest`; `ready` is the number of its task. -/
structure TopicInterest where
  refcount : Int := 0
  ready : Option Nat := none
  deriving Repr, DecidableEq

/-- `_ClaimedResponse`. -/
structure ClaimedResponse where
  pending : Nat
  key : RequestKey
  message : Received
  generation : Nat
  deriving Repr, DecidableEq

/-- A task of `add_response_observer`: not started, in the queue of the guard, waiting for the
    broker, or finished. -/
inductive AddStage where
  | created
  | queued
  | exchanging
  | ok
  | failed
  deriving Repr, DecidableEq

structure ObserverAdd where
  connection : Nat
  topic : String
  stage : AddStage := .created
  cancelRequested : Bool := false
  deriving Repr, DecidableEq

/-- Where a caller of `register` or `close` is suspended. -/
inductive CallerPc where
  | acquiring
  | granted
  | readying (request add : Nat)
  | tearingDown (topic : String) (interest add : Nat)
  | removeQueued (connection : Nat) (topic : String)
  | removing (connection : Nat) (topic : String)
  | returned (request : Nat)
  | ended
  deriving Repr, DecidableEq

/-- A caller of `register`, with its key, or of `close`, with its request. -/
inductive CallerKind where
  | register (key : RequestKey)
  | close (request : Nat)
  deriving Repr, DecidableEq

structure DispatcherCaller where
  kind : CallerKind
  pc : CallerPc
  deriving Repr, DecidableEq

/-- A call in the queue of a guard. -/
inductive GuardWaiter where
  | add (a : Nat)
  | remove (k : Nat)
  deriving Repr, DecidableEq

inductive DispatchEntry where
  | reset
  | claimed (c : Nat)
  | delivered (c : Nat)
  deriving Repr, DecidableEq

/-- `_RequestDispatcher` with everything it refers to; `waiters` are the callers that wait for
    a permit, `restoring` what is left of `restore`. -/
structure RequestDispatcher where
  free : Nat
  waiters : List Nat := []
  pending : Dict RequestKey Nat := []
  topics : Dict String Nat := []
  protocol : Option Nat := none
  generation : Nat := 0
  requests : List PendingRequest := []
  interests : List TopicInterest := []
  claims : List ClaimedResponse := []
  callers : List DispatcherCaller := []
  restoring : Option (List (String × Nat)) := none
  restoreAwaits : Option Nat := none
  adds : List ObserverAdd := []
  connections : Nat := 0
  observers : List (Nat × String) := []
  guardQueue : List GuardWaiter := []
  log : List DispatchEntry := []

inductive DispatcherEvent where
  | bind
  | restore
  | resumeRestore
  | cancelRestore
  | register (key : RequestKey)
  | close (r : Nat)
  | cancelFuture (r : Nat)
  | resume (k : Nat)
  | cancel (k : Nat)
  | startAdd (a : Nat)
  | enterGuard (n : Nat)
  | endAdd (a : Nat) (ok : Bool)
  | endRemove (k : Nat)
  | cancelPending
  | claim (m : Received)
  | complete (c : Nat)
  deriving Repr, DecidableEq

namespace RequestDispatcher

/-! ## Objects -/

def setPc (d : RequestDispatcher) (k : Nat) (pc : CallerPc) : RequestDispatcher :=
  { d with callers := d.callers.modify k fun caller => { caller with pc } }

def modifyRequest (d : RequestDispatcher) (r : Nat) (change : PendingRequest → PendingRequest) :
    RequestDispatcher :=
  { d with requests := d.requests.modify r change }

def modifyInterest (d : RequestDispatcher) (i : Nat) (change : TopicInterest → TopicInterest) :
    RequestDispatcher :=
  { d with interests := d.interests.modify i change }

/-- `if not future.done(): future.…`. -/
def finishFuture (d : RequestDispatcher) (r : Nat) (future : RequestFuture) : RequestDispatcher :=
  d.modifyRequest r fun request =>
    if request.future = .pending then { request with future } else request

def addStage (d : RequestDispatcher) (a : Nat) : AddStage :=
  match d.adds[a]? with
  | some add => add.stage
  | none => .failed

/-- `ready.done()`. -/
def addDone (d : RequestDispatcher) (a : Nat) : Bool :=
  d.addStage a = .ok || d.addStage a = .failed

/-- `self._capacity.release()`. -/
def release (d : RequestDispatcher) : RequestDispatcher :=
  match d.waiters with
  | [] => { d with free := d.free + 1 }
  | k :: waiters => { d with waiters }.setPc k .granted

/-! ## `unregister` -/

/-- The end of `unregister` for a waiter it has removed. -/
def finishUnregister (d : RequestDispatcher) (k : Nat) : RequestDispatcher :=
  (d.setPc k .ended).release

/-- The inner `finally` block. -/
def teardown (d : RequestDispatcher) (k : Nat) (topic : String) (i : Nat)
    (observerActive : Bool) : RequestDispatcher :=
  if (d.interests[i]?).any (fun interest => interest.refcount = 0) ∧ d.topics.get? topic = some i then
    let d := { d with topics := d.topics.pop topic }
    match observerActive, d.protocol with
    | true, some connection =>
        { d with guardQueue := d.guardQueue ++ [GuardWaiter.remove k] }.setPc k (.removeQueued connection topic)
    | _, _ => d.finishUnregister k
  else d.finishUnregister k

/-- The wait for the ready task of the interest. -/
def awaitTeardown (d : RequestDispatcher) (k : Nat) (topic : String) (i : Nat) :
    RequestDispatcher :=
  match (d.interests[i]?).bind TopicInterest.ready with
  | none => d.teardown k topic i false
  | some a =>
      match d.addStage a with
      | .ok => d.teardown k topic i true
      | .failed => d.teardown k topic i false
      | .created | .queued | .exchanging => d.setPc k (.tearingDown topic i a)

/-- The waiter leaves `_pending`; its interest has one less. -/
def removeWaiter (d : RequestDispatcher) (r : Nat) (key : RequestKey) (i : Nat) :
    RequestDispatcher :=
  ({ d with pending := d.pending.pop key }.finishFuture r .cancelled).modifyInterest i
    fun interest => { interest with refcount := interest.refcount - 1 }

/-- `unregister`, up to its first suspension. -/
def unregister (d : RequestDispatcher) (k r : Nat) : RequestDispatcher :=
  match d.requests[r]? with
  | none => d.setPc k .ended
  | some request =>
      if d.pending.get? request.key = some r then
        match d.topics.get? request.key.1 with
        | none =>
            -- the `KeyError` of `self._topics[topic]`
            ({ d with pending := d.pending.pop request.key }.finishFuture r .cancelled).finishUnregister k
        | some i =>
            let d := d.removeWaiter r request.key i
            if (d.interests[i]?).any (fun interest => interest.refcount > 0) then
              d.finishUnregister k
            else d.awaitTeardown k request.key.1 i
      else d.setPc k .ended

/-- `_PendingRequest.close`, in a new caller. -/
def close (d : RequestDispatcher) (r : Nat) : RequestDispatcher :=
  match d.requests[r]? with
  | none => d
  | some request =>
      if request.closed then d
      else
        let caller : DispatcherCaller := { kind := .close r, pc := .ended }
        { d.modifyRequest r fun request => { request with closed := true } with
          callers := d.callers ++ [caller] }.unregister d.callers.length r

/-! ## `register` -/

/-- `_ensure_topic_ready`, with its task. -/
def ensureTopicReady (d : RequestDispatcher) (connection : Nat) (topic : String) (i : Nat) :
    RequestDispatcher × Nat :=
  match (d.interests[i]?).bind TopicInterest.ready with
  | some a => (d, a)
  | none =>
      let add : ObserverAdd := { connection, topic }
      ({ d with adds := d.adds ++ [add] }.modifyInterest i fun interest =>
        { interest with ready := some d.adds.length }, d.adds.length)

/-- `await asyncio.shield(ready)` in `register`. -/
def awaitReady (d : RequestDispatcher) (k r a : Nat) : RequestDispatcher :=
  match d.addStage a with
  | .ok => d.setPc k (.returned r)
  | .failed => d.unregister k r
  | .created | .queued | .exchanging => d.setPc k (.readying r a)

/-- `self._topics.get(topic)`, or a new interest. -/
def topicInterest (d : RequestDispatcher) (topic : String) : RequestDispatcher × Nat :=
  match d.topics.get? topic with
  | some i => (d, i)
  | none =>
      ({ d with
          topics := d.topics.set topic d.interests.length
          interests := d.interests ++ [{}] }, d.interests.length)

/-- The new waiter is in `_pending` and counts for its interest. -/
def addWaiter (d : RequestDispatcher) (key : RequestKey) (i : Nat) : RequestDispatcher :=
  let request : PendingRequest := { key }
  { d with
    requests := d.requests ++ [request]
    pending := d.pending.set key d.requests.length }.modifyInterest i
    fun interest => { interest with refcount := interest.refcount + 1 }

/-- `register` after the semaphore, up to its next suspension. -/
def registered (d : RequestDispatcher) (k : Nat) (key : RequestKey) : RequestDispatcher :=
  match d.pending.get? key, d.protocol with
  | none, some connection =>
      let (d, i) := d.topicInterest key.1
      let r := d.requests.length
      let (d, a) := (d.addWaiter key i).ensureTopicReady connection key.1 i
      d.awaitReady k r a
  | _, _ => (d.setPc k .ended).release

/-- `register`, in a new caller. -/
def register (d : RequestDispatcher) (key : RequestKey) : RequestDispatcher :=
  let k := d.callers.length
  let caller (pc : CallerPc) : DispatcherCaller := { kind := .register key, pc }
  if d.waiters = [] ∧ 0 < d.free then
    { d with free := d.free - 1, callers := d.callers ++ [caller .granted] }.registered k key
  else { d with waiters := d.waiters ++ [k], callers := d.callers ++ [caller .acquiring] }

/-! ## Connections -/

/-- `bind`. -/
def bind (d : RequestDispatcher) : RequestDispatcher :=
  let pending := d.pending.map Prod.snd
  let topics := d.topics.map Prod.snd
  { d with
    protocol := some d.connections
    connections := d.connections + 1
    generation := d.generation + 1
    requests := d.requests.mapIdx fun r request =>
      if r ∈ pending then { request with claimed := false } else request
    interests := d.interests.mapIdx fun i interest =>
      if i ∈ topics then { interest with ready := none } else interest
    log := .reset :: d.log }

/-- The loop of `restore`, up to its next suspension; an exception ends it. -/
def restoreFrom (d : RequestDispatcher) : List (String × Nat) → RequestDispatcher
  | [] => { d with restoring := none, restoreAwaits := none }
  | (topic, i) :: items =>
      if (d.interests[i]?).any fun interest => interest.refcount > 0 then
        match (d.interests[i]?).bind TopicInterest.ready, d.protocol with
        | none, none => { d with restoring := none, restoreAwaits := none }
        | _, connection =>
            let (d, a) := d.ensureTopicReady (connection.getD 0) topic i
            match d.addStage a with
            | .ok => d.restoreFrom items
            | .failed => { d with restoring := none, restoreAwaits := none }
            | .created | .queued | .exchanging =>
                { d with restoring := some items, restoreAwaits := some a }
      else d.restoreFrom items

/-- `restore`. The run loop binds and restores one connection after the other. -/
def restore (d : RequestDispatcher) : RequestDispatcher :=
  match d.restoring with
  | none => d.restoreFrom d.topics
  | some _ => d

def resumeRestore (d : RequestDispatcher) : RequestDispatcher :=
  match d.restoring, d.restoreAwaits with
  | some items, some a =>
      match d.addStage a with
      | .ok => d.restoreFrom items
      | .failed => { d with restoring := none, restoreAwaits := none }
      | .created | .queued | .exchanging => d
  | _, _ => d

/-- `cancel_pending`. -/
def cancelPending (d : RequestDispatcher) : RequestDispatcher :=
  let pending := d.pending.map Prod.snd
  let readyTasks := d.topics.filterMap fun item => (d.interests[item.2]?).bind TopicInterest.ready
  let d := { d with
    pending := []
    topics := []
    protocol := none
    generation := d.generation + 1
    adds := d.adds.mapIdx fun a add =>
      if a ∈ readyTasks then { add with cancelRequested := true } else add
    log := .reset :: d.log }
  pending.foldl (fun d r => (d.finishFuture r .disconnected).release) d

/-! ## Callers -/

/-- Caller `k` runs again: its permit was granted, or the task it waits for has finished. -/
def resume (d : RequestDispatcher) (k : Nat) : RequestDispatcher :=
  match d.callers[k]? with
  | none => d
  | some caller =>
      match caller.pc, caller.kind with
      | .granted, .register key => d.registered k key
      | .readying r a, _ => if d.addDone a then d.awaitReady k r a else d
      | .tearingDown topic i a, _ =>
          match d.addStage a with
          | .ok => d.teardown k topic i true
          | .failed => d.teardown k topic i false
          | .created | .queued | .exchanging => d
      | _, _ => d

/-- `CancelledError` is thrown at the await of caller `k`. -/
def cancel (d : RequestDispatcher) (k : Nat) : RequestDispatcher :=
  match d.callers[k]? with
  | none => d
  | some caller =>
      match caller.pc with
      | .acquiring => { d with waiters := d.waiters.filter (· ≠ k) }.setPc k .ended
      | .granted => (d.setPc k .ended).release
      | .readying r _ => d.unregister k r
      | .tearingDown topic i _ => d.teardown k topic i false
      | .removeQueued _ _ =>
          { d with guardQueue := d.guardQueue.filter (· ≠ GuardWaiter.remove k) }.finishUnregister k
      | .removing _ _ => d.finishUnregister k
      | .returned _ | .ended => d

/-! ## Response observers -/

/-- The connection and the topic of a call in the queue. -/
def waiterGuard (d : RequestDispatcher) : GuardWaiter → Option (Nat × String)
  | .add a => (d.adds[a]?).map fun add => (add.connection, add.topic)
  | .remove k =>
      match (d.callers[k]?).map DispatcherCaller.pc with
      | some (.removeQueued connection topic) => some (connection, topic)
      | _ => none

/-- A call inside the guard waits for the broker. -/
def guardHeld (d : RequestDispatcher) (guard : Nat × String) : Bool :=
  (d.adds.any fun add => add.stage = .exchanging && (add.connection, add.topic) = guard) ||
    d.callers.any fun caller => caller.pc = .removing guard.1 guard.2

def setAddStage (d : RequestDispatcher) (a : Nat) (stage : AddStage) : RequestDispatcher :=
  { d with adds := d.adds.modify a fun add => { add with stage } }

/-- The task of `add_response_observer` runs for the first time. -/
def startAdd (d : RequestDispatcher) (a : Nat) : RequestDispatcher :=
  if d.addStage a = .created then
    { d with guardQueue := d.guardQueue ++ [GuardWaiter.add a] }.setAddStage a .queued
  else d

/-- The call at position `n` of the queue takes the lock of its guard, if it is free and the
    call is the first that waits for it. -/
def enterGuard (d : RequestDispatcher) (n : Nat) : RequestDispatcher :=
  match d.guardQueue[n]? with
  | none => d
  | some waiter =>
      match d.waiterGuard waiter with
      | none => d
      | some guard =>
          if d.guardHeld guard ∨
              (d.guardQueue.take n).any (fun other => d.waiterGuard other = some guard) then d
          else
            let known := d.observers.contains guard
            let d := { d with guardQueue := d.guardQueue.eraseIdx n }
            match waiter with
            | .add a =>
                if known then d.setAddStage a .ok
                else { d with observers := guard :: d.observers }.setAddStage a .exchanging
            | .remove k =>
                if known then
                  { d with observers := d.observers.filter (· ≠ guard) }.setPc k
                    (.removing guard.1 guard.2)
                else d.finishUnregister k

/-- The task ends: inside the guard with the answer of the broker, before that because the
    connection is dead or the task was cancelled. -/
def endAdd (d : RequestDispatcher) (a : Nat) (ok : Bool) : RequestDispatcher :=
  match d.adds[a]? with
  | none => d
  | some add =>
      match add.stage with
      | .ok | .failed => d
      | .created | .queued =>
          if ok then d
          else
            { d with guardQueue := d.guardQueue.filter (· ≠ GuardWaiter.add a) }.setAddStage a .failed
      | .exchanging =>
          if ok ∧ !add.cancelRequested then d.setAddStage a .ok
          else
            { d with observers := d.observers.filter (· ≠ (add.connection, add.topic)) }.setAddStage
              a .failed

/-- `remove_response_observer` ends after it has waited for the broker. -/
def endRemove (d : RequestDispatcher) (k : Nat) : RequestDispatcher :=
  match (d.callers[k]?).map DispatcherCaller.pc with
  | some (.removing _ _) => d.finishUnregister k
  | _ => d

/-! ## Claims -/

/-- The key of a message with correlation data. -/
def messageKey (m : Received) : Option RequestKey :=
  (m.packet.properties.bind PublishProperties.correlationData).map fun data =>
    (m.packet.topic, data)

/-- The key and the request that a message can be claimed for. -/
def claimable (d : RequestDispatcher) (m : Received) : Option (RequestKey × Nat) :=
  match messageKey m with
  | none => none
  | some key =>
      match d.pending.get? key with
      | none => none
      | some r =>
          if (d.requests[r]?).any fun request => !request.claimed && request.future = .pending then
            some (key, r)
          else none

/-- `claim`; the claim gets the next number. -/
def claim (d : RequestDispatcher) (m : Received) : RequestDispatcher :=
  match d.claimable m with
  | none => d
  | some (key, r) =>
      { d.modifyRequest r fun request => { request with claimed := true } with
        claims := d.claims ++ [{ pending := r, key, message := m, generation := d.generation }]
        log := .claimed d.claims.length :: d.log }

/-- The conditions of `complete`. -/
def completes (d : RequestDispatcher) (response : ClaimedResponse) : Bool :=
  d.generation = response.generation && d.pending.get? response.key = some response.pending &&
    (d.requests[response.pending]?).any fun request => request.future = .pending

/-- `complete`. -/
def complete (d : RequestDispatcher) (c : Nat) : RequestDispatcher :=
  match d.claims[c]? with
  | none => d
  | some response =>
      if d.completes response then
        { d.finishFuture response.pending (.result response.message) with
          log := .delivered c :: d.log }
      else d

/-! ## Runs -/

def step (d : RequestDispatcher) : DispatcherEvent → RequestDispatcher
  | .bind => if d.restoring = none then d.bind else d
  | .restore => d.restore
  | .resumeRestore => d.resumeRestore
  | .cancelRestore => { d with restoring := none, restoreAwaits := none }
  | .register key => d.register key
  | .close r => d.close r
  | .cancelFuture r => d.finishFuture r .cancelled
  | .resume k => d.resume k
  | .cancel k => d.cancel k
  | .startAdd a => d.startAdd a
  | .enterGuard n => d.enterGuard n
  | .endAdd a ok => d.endAdd a ok
  | .endRemove k => d.endRemove k
  | .cancelPending => d.cancelPending
  | .claim m => d.claim m
  | .complete c => d.complete c

/-- `_RequestDispatcher(max_pending_requests)`. -/
def start (maxPendingRequests : Nat) : RequestDispatcher := { free := maxPendingRequests }

end RequestDispatcher

end Zmqtt
