/-
  The life of a client (`client.py`): `connect` and `disconnect`, the run task with its
  reconnects, and the transports they open and close (`_internal/transport/base.py`).

  Two tasks act on the client: the main task, which calls `__aenter__` and `__aexit__`, and the run
  task. An event is what happens at the await where a task is suspended, with what the task does up
  to its next await; a cancellation is delivered when it is requested. `__aenter__` is called only
  on a client that is not connected, as the documentation of `connect` asks.

  `_connect_with_retry` runs in either task, so its state (`Retry`) and its step stand for
  themselves. Transports have numbers, in the order in which the factory returned them.
-/
import Zmqtt.Client.RunLoop
import Zmqtt.Client.Transmission

namespace Zmqtt

/-! ## The transport -/

/-- `StreamTransport`; `closeCalls` counts the calls of `writer.close()`. -/
structure StreamTransport where
  closed : Bool := false
  writerClosed : Bool := false
  closeCalls : Nat := 0
  deriving Repr, DecidableEq

namespace StreamTransport

/-- `read`, when the peer has closed the connection. -/
def readEof (t : StreamTransport) : StreamTransport := { t with closed := true }

/-- `close`, up to `wait_closed`. -/
def close (t : StreamTransport) : StreamTransport :=
  if t.writerClosed then { t with closed := true }
  else { closed := true, writerClosed := true, closeCalls := t.closeCalls + 1 }

end StreamTransport

/-! ## The handshake -/

/-- What `connect` and the run loop raise: `other` is any exception that neither names. -/
inductive ClientError where
  | osError
  | timeout
  | connectError (returnCode : Int)
  | disconnected
  | protocolError
  | other
  deriving Repr, DecidableEq

/-- What `_await_connack` raises, for the client. -/
def ConnectFailure.clientError : ConnectFailure → ClientError
  | .raised _ => .other
  | .protocolError _ => .protocolError
  | .connectError returnCode _ => .connectError returnCode
  | .disconnected => .disconnected

/-- `ConnectionInfo`. -/
structure ConnectionInfo where
  connectionId : Nat
  sessionPresent : Bool
  returnCode : Int
  properties : Option ConnAckProperties
  effectiveClientId : String
  effectiveKeepalive : Int
  effectiveSessionExpiryInterval : Option Int
  deriving Repr, DecidableEq

namespace ConnectionInfo

/-- The client id that the CONNACK properties leave in effect. -/
def clientIdAfter (clientId : String) (properties : ConnAckProperties) : String :=
  if clientId = "" then properties.assignedClientIdentifier.getD clientId else clientId

/-- `from_connack`. -/
def fromConnack (connect : Connect) (connack : ConnAck) (version : Version) (connectionId : Nat) :
    ConnectionInfo :=
  let requested : Option Int :=
    if version = .v5 then some ((connect.properties.bind (·.sessionExpiryInterval)).getD 0) else none
  match connack.properties with
  | none =>
      { connectionId, sessionPresent := connack.sessionPresent, returnCode := connack.returnCode
        properties := none, effectiveClientId := connect.clientId
        effectiveKeepalive := connect.keepalive, effectiveSessionExpiryInterval := requested }
  | some properties =>
      { connectionId, sessionPresent := connack.sessionPresent, returnCode := connack.returnCode
        properties := some properties
        effectiveClientId := clientIdAfter connect.clientId properties
        effectiveKeepalive := properties.serverKeepAlive.getD connect.keepalive
        effectiveSessionExpiryInterval :=
          if version = .v5 then properties.sessionExpiryInterval.or requested else requested }

end ConnectionInfo

/-! ## `_connect_with_retry` -/

/-- Where `_connect_with_retry` is suspended: in `asyncio.sleep`, in the transport factory, in
    the write of CONNECT, in `_await_connack` with what its buffer holds, or in the `close` of the
    transport before it raises; `none` stands for `CancelledError`. -/
inductive RetryPhase where
  | sleeping
  | opening
  | sending (transport : Nat)
  | handshaking (transport : Nat) (buf : Bytes)
  | closing (transport : Nat) (raises : Option ClientError)
  deriving Repr, DecidableEq

/-- `_connect_with_retry` with its variables. -/
structure Retry where
  attempt : Nat
  delay : ℚ
  phase : RetryPhase
  deriving DecidableEq

/-- What happens to `_connect_with_retry` at an await. -/
inductive RetryEvent where
  | wakes
  | opened
  | openFails (e : ClientError)
  | sent
  | sendFails (e : ClientError)
  | received (data : Bytes)
  | readFails (e : ClientError)
  | eof
  | timesOut
  | closed
  deriving Repr, DecidableEq

/-- What `_connect_with_retry` comes to: it goes on, it returns on a new connection, or it
    raises; `none` stands for `CancelledError`. -/
inductive RetryResult where
  | continues (r : Retry)
  | connected (transport : Nat) (connack : ConnAck)
  | raised (e : Option ClientError)

namespace Retry

/-- `_connect_with_retry()`. -/
def start (config : ReconnectConfig) : Retry := ⟨0, config.initialDelay, .opening⟩

/-- `_connect_with_retry(wait_before_first_attempt=True)`. -/
def startWaiting (config : ReconnectConfig) : Retry := ⟨0, config.initialDelay, .sleeping⟩

/-- The transport of the attempt. -/
def transport (r : Retry) : Option Nat :=
  match r.phase with
  | .sending t | .handshaking t _ | .closing t _ => some t
  | .sleeping | .opening => none

/-- The `except` clauses of `_connect_with_retry`. -/
def attemptFails (config : ReconnectConfig) (r : Retry) (e : ClientError) : RetryResult :=
  match e with
  | .osError | .timeout =>
      if RunLoop.givesUp config (r.attempt + 1) then .raised (some e)
      else .continues { r with attempt := r.attempt + 1, phase := .sleeping }
  | .connectError _ | .disconnected | .protocolError | .other => .raised (some e)

/-- The `except` clause of `_connect`: the transport is closed first. -/
def handshakeFails (r : Retry) (t : Nat) (e : Option ClientError)
    (transports : List StreamTransport) : RetryResult × List StreamTransport :=
  (.continues { r with phase := .closing t e }, transports.modify t StreamTransport.close)

/-- What the loop body of `_await_connack` does with the bytes of one `read`. -/
def connackRead (version : Version) (buf data : Bytes) :
    Except ConnectFailure (Option ConnAck × Bytes) :=
  match decode (buf ++ data) version with
  | .error e => .error (.raised e)
  | .ok none => .ok (none, buf ++ data)
  | .ok (some (pkt, n)) =>
      match acceptConnack version pkt with
      | .error e => .error e
      | .ok (connack, _) => .ok (some connack, (buf ++ data).drop n)

/-- A step of `_connect_with_retry`, with the transports of the client; an event that cannot
    happen there changes nothing. -/
def step (config : ClientConfig) (reconnect : ReconnectConfig) (transports : List StreamTransport)
    (r : Retry) (e : RetryEvent) : RetryResult × List StreamTransport :=
  match r.phase, e with
  | .sleeping, .wakes =>
      (.continues { r with delay := RunLoop.nextDelay reconnect r.delay, phase := .opening },
        transports)
  | .opening, .opened =>
      let t := transports.length
      match encode (.connect config.connectPacket) config.version with
      | .error _ => r.handshakeFails t (some .other) (transports ++ [{}])
      | .ok _ => (.continues { r with phase := .sending t }, transports ++ [{}])
  | .opening, .openFails err => (r.attemptFails reconnect err, transports)
  | .sending t, .sent => (.continues { r with phase := .handshaking t [] }, transports)
  | .sending t, .sendFails err => r.handshakeFails t (some err) transports
  | .handshaking t buf, .received data =>
      match connackRead config.version buf data with
      | .error failure => r.handshakeFails t (some failure.clientError) transports
      | .ok (none, rest) => (.continues { r with phase := .handshaking t rest }, transports)
      | .ok (some connack, _) => (.connected t connack, transports)
  | .handshaking t _, .eof =>
      r.handshakeFails t (some .disconnected) (transports.modify t StreamTransport.readEof)
  | .handshaking t _, .readFails err => r.handshakeFails t (some err) transports
  | .handshaking t _, .timesOut => r.handshakeFails t (some .timeout) transports
  | .closing _ (some err), .closed => (r.attemptFails reconnect err, transports)
  | .closing _ none, .closed => (.raised none, transports)
  | _, _ => (.continues r, transports)

/-- `_connect_with_retry` is cancelled. -/
def cancel (transports : List StreamTransport) (r : Retry) :
    RetryResult × List StreamTransport :=
  match r.phase with
  | .sleeping | .opening | .closing _ _ => (.raised none, transports)
  | .sending t | .handshaking t _ => r.handshakeFails t none transports

end Retry

/-! ## The client -/

/-- How the run task ends. -/
inductive RunResult where
  | returned
  | cancelled
  | failed (e : ClientError)
  deriving Repr, DecidableEq

/-- What `_run_loop` does after its `finally` clause. -/
inductive AfterReaping where
  | reconnects
  | ends (result : RunResult)
  deriving Repr, DecidableEq

/-- Where `_run_loop` is: not yet started, in the `try` block, in the `close` of the lost transport,
    in the callback before the loss is raised, in the `finally` clause, in `_connect_with_retry`, or
    in the callback before its failure is raised. A task that has ended may still have to call
    `_notify_subscription_failure`. -/
inductive RunPhase where
  | starting
  | serving
  | closing
  | notifyingLost (e : ClientError)
  | reaping (next : AfterReaping)
  | reconnecting (r : Retry)
  | notifyingFailed (e : ClientError)
  | ended (result : RunResult) (notified : Bool)
  deriving DecidableEq

/-- Where the main task is: in no call, in `__aenter__`, or in `__aexit__`, which awaits
    `cancel_pending()`, the run task, the write of DISCONNECT and the `close` of the transport.
    A cancellation while it awaits the run task is raised when that has ended. -/
inductive MainPhase where
  | resting
  | entering (r : Retry)
  | cancellingPending
  | joining (interrupted : Bool)
  | disconnecting (transport : Nat)
  | closing (transport : Nat)
  deriving DecidableEq

/-- `MQTTClient`, as far as its connections go. `subscriptionFailure` is the future that
    `get_message` waits for; `infos` are all snapshots, newest first, and `awaited` counts the calls
    of `on_connection_recovery_failed` since `__aenter__`. -/
structure Client where
  config : ClientConfig := {}
  reconnect : ReconnectConfig := {}
  onConnectionRecoveryFailed : Bool := true
  transports : List StreamTransport := []
  protocol : Option Nat := none
  connectionInfo : Option ConnectionInfo := none
  connectionId : Nat := 0
  subscriptionFailure : Option (Option ClientError) := none
  runTask : Option RunPhase := none
  main : MainPhase := .resting
  infos : List ConnectionInfo := []
  awaited : Nat := 0

/-- What happens to a client. -/
inductive LifeEvent where
  | enter
  | exit
  | interrupt
  | retry (e : RetryEvent)
  | pendingCancelled
  | joined
  | disconnectSent
  | disconnectClosed
  | runStarts
  | served (raises : Option ClientError)
  | lostClosed
  | callbackEnds (ok : Bool)
  | reaped
  | runNotified
  | connectionEof
  | connectionAborted
  deriving Repr, DecidableEq

namespace Client

/-- The end of `_connect`, after the handshake on transport `t`. -/
def establish (s : Client) (t : Nat) (connack : ConnAck) : Client :=
  let info := ConnectionInfo.fromConnack s.config.connectPacket connack s.config.version
    (s.connectionId + 1)
  { s with protocol := some t, connectionInfo := some info, connectionId := info.connectionId
           infos := info :: s.infos }

/-- `__aenter__` after `_connect_with_retry`, which leaves the transports as they are then. -/
def entered (s : Client) (after : RetryResult × List StreamTransport) : Client :=
  let s := { s with transports := after.2 }
  match after.1 with
  | .continues r => { s with main := .entering r }
  | .connected t connack =>
      { s.establish t connack with
        main := .resting, subscriptionFailure := some none, runTask := some .starting, awaited := 0 }
  | .raised _ => { s with main := .resting }

/-- The run task ends; its done callback is still to be called. -/
def runEnds (s : Client) (result : RunResult) : Client :=
  { s with runTask := some (.ended result false) }

/-- `_notify_connection_recovery_failed` in the run task, up to its await; without a callback
    the task goes on at once. -/
def notifyConnectionRecoveryFailed (s : Client) (awaiting afterwards : RunPhase) : Client :=
  if s.onConnectionRecoveryFailed then
    { s with runTask := some awaiting, awaited := s.awaited + 1 }
  else { s with runTask := some afterwards }

/-- `_run_loop` after `_connect_with_retry`. -/
def reconnected (s : Client) (after : RetryResult × List StreamTransport) : Client :=
  let s := { s with transports := after.2 }
  match after.1 with
  | .continues r => { s with runTask := some (.reconnecting r) }
  | .connected t connack => { s.establish t connack with runTask := some .serving }
  | .raised none => s.runEnds .cancelled
  | .raised (some e) =>
      match e with
      | .connectError _ | .timeout | .osError =>
          s.notifyConnectionRecoveryFailed (.notifyingFailed e) (.ended (.failed e) false)
      | .disconnected | .protocolError | .other => s.runEnds (.failed e)

/-- The `close` of the transport of `_protocol`. -/
def closeProtocol (s : Client) : Client :=
  match s.protocol with
  | none => s
  | some t => { s with transports := s.transports.modify t StreamTransport.close }

/-- `_run_loop` after its `try` block, up to its next await. -/
def servingEnds (s : Client) : Option ClientError → Client
  | none => { s with connectionInfo := none, runTask := some (.reaping (.ends .returned)) }
  | some e =>
      match e with
      | .disconnected | .timeout =>
          if s.reconnect.enabled then
            { s.closeProtocol with connectionInfo := none, runTask := some .closing }
          else
            { s with connectionInfo := none }.notifyConnectionRecoveryFailed (.notifyingLost e)
              (.reaping (.ends (.failed e)))
      | .osError | .connectError _ | .protocolError | .other =>
          { s with connectionInfo := none, runTask := some (.reaping (.ends (.failed e))) }

/-- The run task is cancelled. -/
def cancelRun (s : Client) : Client :=
  match s.runTask with
  | none | some (.ended _ _) => s
  | some .starting | some (.notifyingFailed _) => s.runEnds .cancelled
  | some .serving | some .closing | some (.notifyingLost _) | some (.reaping _) =>
      { s with connectionInfo := none, runTask := some (.reaping (.ends .cancelled)) }
  | some (.reconnecting r) => s.reconnected (r.cancel s.transports)

/-- `_notify_subscription_failure`. -/
def notifySubscriptionFailure (s : Client) (result : RunResult) : Client :=
  { s with
    connectionInfo := none
    runTask := some (.ended result true)
    subscriptionFailure :=
      match result, s.subscriptionFailure with
      | .failed e, some none => some (some e)
      | _, signal => signal }

/-- `__aexit__` from `protocol.disconnect()` on. -/
def disconnect (s : Client) : Client :=
  match s.protocol with
  | none => { s with main := .resting }
  | some t => { s with main := .disconnecting t }

/-- `__aexit__` after `cancel_pending()`. -/
def stopRunTask (s : Client) : Client :=
  match s.runTask with
  | none => s.disconnect
  | some _ => { s.cancelRun with main := .joining false }

/-- The main task is cancelled at its await. -/
def interrupt (s : Client) : Client :=
  match s.main with
  | .resting => s
  | .entering r => s.entered (r.cancel s.transports)
  | .joining _ => { s.cancelRun with main := .joining true }
  | .cancellingPending | .disconnecting _ | .closing _ => { s with main := .resting }

/-- An event of `_connect_with_retry`, in the task that runs it. -/
def stepRetry (s : Client) (e : RetryEvent) : Client :=
  match s.main, s.runTask with
  | .entering r, _ => s.entered (r.step s.config s.reconnect s.transports e)
  | _, some (.reconnecting r) => s.reconnected (r.step s.config s.reconnect s.transports e)
  | _, _ => s

/-- An event of the run task. -/
def stepRun (s : Client) (phase : RunPhase) (e : LifeEvent) : Client :=
  match phase, e with
  | .starting, .runStarts =>
      if s.protocol.isNone then s.runEnds (.failed .other) else { s with runTask := some .serving }
  | .serving, .served raises => s.servingEnds raises
  | .serving, .connectionEof =>
      match s.protocol with
      | none => s
      | some t => { s with transports := s.transports.modify t StreamTransport.readEof }
  | .serving, .connectionAborted => s.closeProtocol
  | .closing, .lostClosed => { s with runTask := some (.reaping .reconnects) }
  | .notifyingLost e, .callbackEnds ok =>
      { s with runTask := some (.reaping (.ends (.failed (if ok then e else .other)))) }
  | .reaping .reconnects, .reaped =>
      { s with runTask := some (.reconnecting (Retry.startWaiting s.reconnect)) }
  | .reaping (.ends result), .reaped => s.runEnds result
  | .notifyingFailed e, .callbackEnds ok => s.runEnds (.failed (if ok then e else .other))
  | .ended result false, .runNotified => s.notifySubscriptionFailure result
  | _, _ => s

/-- An event of the client; one that cannot happen changes nothing. -/
def step (s : Client) (e : LifeEvent) : Client :=
  match s.main, e with
  | .resting, .enter =>
      if s.protocol.isNone ∧ s.runTask.isNone then
        { s with main := .entering (Retry.start s.reconnect) }
      else s
  | .resting, .exit => { s with connectionInfo := none, main := .cancellingPending }
  | .cancellingPending, .pendingCancelled => s.stopRunTask
  | .joining interrupted, .joined =>
      match s.runTask with
      | some (.ended _ true) =>
          if interrupted then { s with main := .resting } else { s with runTask := none }.disconnect
      | _ => s
  | .disconnecting t, .disconnectSent =>
      { s with transports := s.transports.modify t StreamTransport.close, main := .closing t }
  | .closing _, .disconnectClosed => { s with protocol := none, main := .resting }
  | _, .interrupt => s.interrupt
  | _, .retry e => s.stepRetry e
  | _, e =>
      match s.runTask with
      | none => s
      | some phase => s.stepRun phase e

/-- `MQTTClient(…)`. -/
def new (config : ClientConfig) (reconnect : ReconnectConfig) (onConnectionRecoveryFailed : Bool) :
    Client :=
  { config, reconnect, onConnectionRecoveryFailed }

end Client

end Zmqtt
