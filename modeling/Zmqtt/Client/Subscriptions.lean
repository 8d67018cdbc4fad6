/-
  The subscriptions of a client (`Subscription` and `_run_loop` of `client.py`): what enters
  and leaves `_subscriptions`, what each connection has in its index, and what the run loop
  subscribes again after a reconnect.

  Subscriptions, connections and the calls of a connection are named by their numbers; the
  queue of a subscription has the number of the subscription. `subscribe` and `unsubscribe`
  of a connection are calls of the model `Interests`. A caller runs again some time after its
  call has ended; for `subscribe` the drain lies in between.

  A message is routed to an entry of the index, and put into its queue later: at once, when
  there is room, or when its PUBREL comes.
-/
import Zmqtt.Session.Interests

namespace Zmqtt

/-- `Subscription`. -/
structure ClientSubscription where
  filters : List SubscriptionRequest
  autoAck : Bool := true
  subscriptionIdentifier : Option Int := none
  registeredFilters : List String := []
  deriving Repr, DecidableEq

/-- What a call of a connection is for: `__aenter__`, `__aexit__` or the restoration of a
    subscription, or a response observer. -/
inductive CallRole where
  | enter (n : Nat)
  | exit (n : Nat)
  | restore (n : Nat)
  | observer
  deriving Repr, DecidableEq

/-- `result` has the new filters of a `subscribe` that succeeded; `left` says that the caller
    has gone on. -/
structure ClientCall where
  role : CallRole
  result : Option (List String) := none
  left : Bool := false
  deriving Repr, DecidableEq

/-- A connection, with the caller of each of its calls. -/
structure ClientConnection where
  interests : Interests
  calls : List ClientCall := []

/-- `MQTTClient`. `toRestore` is what is left of `subs_to_restore`, `restoreCall` the call of
    the restoration that is under way, `routed` has the queues of the messages that are to be
    put, and `late` those of the puts after an exit. -/
structure SubscriptionClient where
  subs : List ClientSubscription := []
  subscriptions : List Nat := []
  connections : List ClientConnection := []
  protocol : Option Nat := none
  reconnecting : Bool := false
  toRestore : List Nat := []
  restoreCall : Option Nat := none
  routed : List Nat := []
  late : List Nat := []

inductive ClientEvent where
  | connect (version : Version) (maxPublishQos : QoS) (strippedPrefixes : List String)
  | lose
  | endLoop
  | disconnect
  | create (sub : ClientSubscription)
  | enter (n : Nat)
  | exit (n : Nat) (beingCancelled : Bool)
  | observe (add : Bool) (topic : String)
  | restoreNext
  | call (c : Nat) (e : InterestEvent)
  | leave (c k : Nat) (ok : Bool)
  | route (filter : String)
  | put (j : Nat)
  | drop (j : Nat)

namespace ClientSubscription

/-- The call of `_do_subscribe`. -/
def subscribeCall (sub : ClientSubscription) (n : Nat) : InterestCall :=
  .subscribe sub.filters sub.autoAck n sub.subscriptionIdentifier

end ClientSubscription

namespace ClientCall

/-- The caller is inside `__aenter__` or `__aexit__` of subscription `n`. -/
def inside (call : ClientCall) (n : Nat) : Bool :=
  !call.left && (call.role = .enter n || call.role = .exit n)

end ClientCall

namespace ClientConnection

def dead (conn : ClientConnection) : Bool := conn.interests.protocol.dead

/-- A new call. -/
def start (conn : ClientConnection) (role : CallRole) (call : InterestCall) : ClientConnection where
  interests := conn.interests.step (.start call)
  calls := conn.calls ++ [{ role }]

/-- The calls after `e`: a `subscribe` that returns has its new filters. -/
def results (conn : ClientConnection) (e : InterestEvent) : List ClientCall :=
  match e with
  | .resume k _ =>
      match (conn.interests.tasks[k]?).map InterestTask.pc with
      | some (.subscribing exchange newFilters) =>
          if (conn.interests.step e).protocol.returned exchange then
            conn.calls.modify k fun call => { call with result := some newFilters }
          else conn.calls
      | _ => conn.calls
  | _ => conn.calls

/-- A call goes on, or the connection does. -/
def advance (conn : ClientConnection) (e : InterestEvent) : ClientConnection :=
  match e with
  | .start _ => conn
  | _ => { interests := conn.interests.step e, calls := conn.results e }

/-- The caller of call `k` goes on. -/
def leave (conn : ClientConnection) (k : Nat) : ClientConnection :=
  { conn with calls := conn.calls.modify k fun call => { call with left := true } }

end ClientConnection

namespace SubscriptionClient

/-- `client._protocol`. -/
def current (s : SubscriptionClient) : Option ClientConnection :=
  s.protocol.bind fun c => s.connections[c]?

/-- The current connection has ended. -/
def lost (s : SubscriptionClient) : Bool := s.current.any ClientConnection.dead

/-- Subscription `n` is in `_subscriptions`, or inside its own `__aenter__` or `__aexit__`. -/
def active (s : SubscriptionClient) (n : Nat) : Bool :=
  s.subscriptions.contains n || s.connections.any fun conn => conn.calls.any fun call => call.inside n

def modifyConnection (s : SubscriptionClient) (c : Nat)
    (change : ClientConnection → ClientConnection) : SubscriptionClient :=
  { s with connections := s.connections.modify c change }

/-- `self._registered_filters = list(queues.keys())`. -/
def register (s : SubscriptionClient) (n : Nat) (filters : List String) : SubscriptionClient :=
  { s with subs := s.subs.modify n fun sub => { sub with registeredFilters := filters } }

/-! ## `Subscription` -/

/-- `__aenter__`, up to its call. -/
def enter (s : SubscriptionClient) (n : Nat) : SubscriptionClient :=
  match s.protocol, s.subs[n]? with
  | some c, some sub =>
      { s with subscriptions := s.subscriptions ++ [n] }.modifyConnection c fun conn =>
        conn.start (.enter n) (sub.subscribeCall n)
  | _, _ => s

/-- The connection and the filters of the UNSUBSCRIBE in `__aexit__`, if there is one. -/
def unsubscribes (s : SubscriptionClient) (n : Nat) (beingCancelled : Bool) :
    Option (Nat × List String) :=
  match s.protocol, s.subs[n]? with
  | some c, some sub =>
      if !beingCancelled ∧ sub.registeredFilters ≠ [] then some (c, sub.registeredFilters) else none
  | _, _ => none

/-- `__aexit__`, up to its call. -/
def exit (s : SubscriptionClient) (n : Nat) (beingCancelled : Bool) : SubscriptionClient :=
  if n ∈ s.subscriptions then
    let s := { s with subscriptions := s.subscriptions.erase n }
    match s.unsubscribes n beingCancelled with
    | some (c, filters) => s.modifyConnection c fun conn => conn.start (.exit n) (.unsubscribe filters)
    | none => s
  else s

/-! ## `_run_loop` -/

/-- `_connect` succeeds. -/
def connect (s : SubscriptionClient) (version : Version) (maxPublishQos : QoS)
    (strippedPrefixes : List String) : SubscriptionClient :=
  if s.restoreCall = none ∧ (s.protocol = none ∨ s.lost) then
    { s with
      connections := s.connections ++
        [{ interests := Interests.fresh version maxPublishQos strippedPrefixes }]
      protocol := some s.connections.length
      reconnecting := false
      toRestore := if s.reconnecting then s.toRestore else [] }
  else s

/-- The `except` clause and `subs_to_restore = list(self._subscriptions)`; `run()` has ended. -/
def lose (s : SubscriptionClient) : SubscriptionClient :=
  if s.restoreCall = none ∧ s.lost ∧ !s.reconnecting then
    { s with toRestore := s.subscriptions, reconnecting := true }
  else s

/-- The loop ends. -/
def endLoop (s : SubscriptionClient) : SubscriptionClient :=
  if s.restoreCall = none then { s with toRestore := [], reconnecting := false } else s

/-- `disconnect()` of the client. -/
def disconnect (s : SubscriptionClient) : SubscriptionClient :=
  if s.restoreCall = none ∧ s.lost then
    { s with protocol := none, toRestore := [], reconnecting := false }
  else s

/-- `sub._reconnect(self._protocol)`, up to its call. -/
def restoreNext (s : SubscriptionClient) : SubscriptionClient :=
  match s.toRestore, s.protocol, s.restoreCall with
  | n :: toRestore, some c, none =>
      match s.connections[c]?, s.subs[n]? with
      | some conn, some sub =>
          if s.reconnecting then s
          else
            { s with toRestore, restoreCall := some conn.calls.length }.modifyConnection c fun conn =>
              conn.start (.restore n) (sub.subscribeCall n)
      | _, _ => s
  | _, _, _ => s

/-! ## Calls -/

/-- A call for a response observer. -/
def observe (s : SubscriptionClient) (add : Bool) (topic : String) : SubscriptionClient :=
  match s.protocol with
  | some c =>
      s.modifyConnection c fun conn => conn.start .observer
        (if add then .addResponseObserver topic else .removeResponseObserver topic)
  | none => s

/-- What the caller of an ended call does; an exception in the drain is not `ok`. -/
def goOn (s : SubscriptionClient) (call : ClientCall) (ok : Bool) : SubscriptionClient :=
  match call.role, if ok then call.result else none with
  | .enter n, some filters => s.register n filters
  | .restore n, some filters => { s.register n filters with restoreCall := none }
  | .restore _, none => { s with restoreCall := none, toRestore := [] }
  | .enter _, none | .exit _, _ | .observer, _ => s

/-- The caller of call `k` runs after the call has ended. -/
def leave (s : SubscriptionClient) (c k : Nat) (ok : Bool) : SubscriptionClient :=
  match s.connections[c]? with
  | none => s
  | some conn =>
      match conn.calls[k]?, conn.interests.tasks[k]? with
      | some call, some task =>
          if task.pc = .ended ∧ !call.left then
            (s.modifyConnection c fun conn => conn.leave k).goOn call ok
          else s
      | _, _ => s

/-! ## Messages -/

/-- A message on the current connection is routed to the entry of `filter`. -/
def route (s : SubscriptionClient) (filter : String) : SubscriptionClient :=
  match s.current with
  | none => s
  | some conn =>
      match conn.interests.index.entries.get? filter with
      | some entry => if conn.dead then s else { s with routed := s.routed ++ [entry.queue] }
      | none => s

/-- A routed message is put into its queue. -/
def put (s : SubscriptionClient) (j : Nat) : SubscriptionClient :=
  match s.routed[j]? with
  | none => s
  | some n =>
      { s with
        routed := s.routed.eraseIdx j
        late := if s.active n then s.late else n :: s.late }

/-- A routed message is lost. -/
def drop (s : SubscriptionClient) (j : Nat) : SubscriptionClient :=
  { s with routed := s.routed.eraseIdx j }

def step (s : SubscriptionClient) : ClientEvent → SubscriptionClient
  | .connect version maxPublishQos strippedPrefixes =>
      s.connect version maxPublishQos strippedPrefixes
  | .lose => s.lose
  | .endLoop => s.endLoop
  | .disconnect => s.disconnect
  | .create sub => { s with subs := s.subs ++ [{ sub with registeredFilters := [] }] }
  | .enter n => s.enter n
  | .exit n beingCancelled => s.exit n beingCancelled
  | .observe add topic => s.observe add topic
  | .restoreNext => s.restoreNext
  | .call c e => s.modifyConnection c fun conn => conn.advance e
  | .leave c k ok => s.leave c k ok
  | .route filter => s.route filter
  | .put j => s.put j
  | .drop j => s.drop j

/-- A client before its first connection. -/
def start : SubscriptionClient := {}

end SubscriptionClient

end Zmqtt
