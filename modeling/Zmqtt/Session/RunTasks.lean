/-
  `MQTTProtocol.run` (`_internal/protocol.py`): the task that owns the read loop and the ping
  loop of a connection, over the calls and pings of `DeadConnection`.

  `_read_loop` ends when `_dispatch`, the decoder or `transport.read` raises; it returns when the
  connection is closed after `disconnect()`. `_ping_loop` sleeps and calls `ping`, again and
  again, and ends with what `ping` raises. `keepalive` is the argument of the sleep, whose end is
  an event here: a keepalive of 0 does not stop the loop. `run` waits for both in
  `asyncio.gather`, and its `finally` clause sets `_dead` and fails what is pending.

  A CancelledError is thrown into a loop when it is resumed. On Python 3.10 and 3.11
  `asyncio.wait_for` drops it when the PINGRESP has come as well: `ping` returns, and the ping
  loop goes on.
-/
import Zmqtt.Lib.Gather
import Zmqtt.Session.PingAttribution

namespace Zmqtt

/-! ## Data -/

/-- The two tasks of `run()`. -/
inductive RunTask where
  | read
  | ping
  deriving Repr, DecidableEq

instance : Fintype RunTask := ⟨{.read, .ping}, fun t => by cases t <;> decide⟩

/-- What the two loops raise. -/
inductive RunError where
  | dispatch (e : DispatchError)
  | disconnected
  | write
  | other
  | ping (outcome : PingOutcome)
  deriving Repr, DecidableEq

/-- A connection with `run()` and its tasks; `pingLoop` is the ping that the ping loop waits
    in, if it does not sleep. -/
structure Run where
  connection : Connection
  gather : Gather RunTask RunError := {}
  pingLoop : Option Nat := none
  disconnecting : Bool := false

/-- `caller` is a step of the operations that other tasks have called. -/
inductive RunEvent where
  | start
  | caller (e : ConnectionEvent)
  | disconnect
  | receive (packet : Packet)
  | resumeReadLoop (written : Bool)
  | readClosed
  | readRaises
  | cancelRead
  | sleepOver
  | resumePing (written : Bool)
  | timeoutPing
  | cancelPing
  | notice (task : RunTask)
  | cancel
  | resume

namespace Run

def protocol (s : Run) : Protocol := s.connection.protocol

/-- A step of the connection. -/
def act (s : Run) (e : ConnectionEvent) : Run := { s with connection := s.connection.step e }

def endTask (s : Run) (task : RunTask) (o : TaskEnd RunError) : Run :=
  { s with gather := s.gather.endChild task o }

/-- Task `task` has not ended, and no CancelledError is to be thrown into it. -/
def runs (s : Run) (task : RunTask) : Bool := s.gather.live task && !s.gather.asked task

/-- Task `task` was cancelled and has not ended. -/
def stops (s : Run) (task : RunTask) : Bool := s.gather.live task && s.gather.asked task

/-! ## `_read_loop` -/

def receive (s : Run) (packet : Packet) : Run :=
  if s.runs .read ∧ s.protocol.readLoop = .reading then
    let s' := s.act (.call (.background (.receive packet)))
    match s.protocol.dispatch packet with
    | .ok _ => s'
    | .error e => s'.endTask .read (.raised (.dispatch e))
  else s

def resumeReadLoop (s : Run) (written : Bool) : Run :=
  if s.runs .read ∧ s.protocol.readLoop = .sendingPubrel then
    let s' := s.act (.call (.background (.resumeReadLoop written)))
    if written then s' else s'.endTask .read (.raised .write)
  else s

/-- `transport.read` raises `MQTTDisconnectedError`. -/
def readClosed (s : Run) : Run :=
  if s.runs .read ∧ s.protocol.readLoop = .reading then
    s.endTask .read (if s.disconnecting then .returned else .raised .disconnected)
  else s

/-- `transport.read`, the decoder or a handler raises another exception. -/
def readRaises (s : Run) : Run :=
  if s.runs .read ∧ s.protocol.readLoop = .reading then s.endTask .read (.raised .other) else s

def cancelRead (s : Run) : Run := if s.stops .read then s.endTask .read .cancelled else s

/-! ## `_ping_loop` -/

def sleepOver (s : Run) : Run :=
  if s.runs .ping ∧ s.pingLoop.isNone then
    { s.act .ping with pingLoop := some s.connection.pings.length }
  else s

/-- The ping loop after a step of its ping. -/
def afterPing (s : Run) (j : Nat) : Run :=
  match s.connection.pc? j with
  | some (.finished .returned) => { s with pingLoop := none }
  | some (.finished outcome) => s.endTask .ping (.raised (.ping outcome))
  | some .sending | some .waiting | none => s

/-- `wait_for` has its result when the CancelledError comes. -/
def swallows (s : Run) (j : Nat) : Bool :=
  s.stops .ping && decide (s.connection.pc? j = some .waiting) &&
    decide (s.connection.future? j = some .result)

def resumePing (s : Run) (written : Bool) : Run :=
  match s.pingLoop with
  | none => s
  | some j =>
      if s.runs .ping then (s.act (.resumePing j written)).afterPing j
      else if s.swallows j then
        { s.act (.resumePing j written) with
          gather := s.gather.dropRequest .ping
          pingLoop := none }
      else s

def timeoutPing (s : Run) : Run :=
  match s.pingLoop with
  | none => s
  | some j => if s.runs .ping then (s.act (.timeoutPing j)).afterPing j else s

def cancelPing (s : Run) : Run :=
  if s.stops .ping then
    match s.pingLoop with
    | none => s.endTask .ping .cancelled
    | some j => (s.act (.cancelPing j)).endTask .ping .cancelled
  else s

/-! ## `run` -/

/-- The `finally` clause runs when `run()` ends. -/
def resume (s : Run) : Run :=
  let s' := { s with gather := s.gather.resume }
  if s'.gather.hasEnded ∧ !s.gather.hasEnded then s'.act (.call (.background .runExit)) else s'

/-- The steps of the connection that belong to other tasks. -/
def ofCallers (s : Run) : ConnectionEvent → Bool
  | .call (.background (.receive _)) | .call (.background (.resumeReadLoop _)) => false
  | .call (.background .runExit) => false
  | .call _ | .ping => true
  | .resumePing j _ | .timeoutPing j | .cancelPing j => s.pingLoop ≠ some j

def step (s : Run) : RunEvent → Run
  | .start => { s with gather := s.gather.start }
  | .caller e => if s.ofCallers e then s.act e else s
  | .disconnect => { s with disconnecting := true }
  | .receive packet => s.receive packet
  | .resumeReadLoop written => s.resumeReadLoop written
  | .readClosed => s.readClosed
  | .readRaises => s.readRaises
  | .cancelRead => s.cancelRead
  | .sleepOver => s.sleepOver
  | .resumePing written => s.resumePing written
  | .timeoutPing => s.timeoutPing
  | .cancelPing => s.cancelPing
  | .notice task => { s with gather := s.gather.notice task }
  | .cancel => { s with gather := s.gather.cancel }
  | .resume => s.resume

/-- A connection right after the handshake, before the first step of `run()`. -/
def fresh (version : Version) (maxPublishQos : QoS) (strippedPrefixes : List String) : Run :=
  { connection := Connection.fresh version maxPublishQos strippedPrefixes }

/-! ## What a step does -/

variable {s : Run}

/-- A change of the parent and its tasks. -/
inductive Changes (g : Gather RunTask RunError) : Gather RunTask RunError → Prop where
  | refl : Changes g g
  | start : Changes g g.start
  | endTask (task : RunTask) (o : TaskEnd RunError) (ho : o = .cancelled → g.asked task = true)
      (hping : task = .ping → o ≠ .returned) : Changes g (g.endChild task o)
  | dropRequest : Changes g (g.dropRequest .ping)
  | notice (task : RunTask) : Changes g (g.notice task)
  | cancel : Changes g g.cancel

/-- A step of the connection inside a step of the run: a ping that starts is of a caller or of a
    ping loop that has not ended, and `run()` does not exit in it. -/
def Inner (s : Run) (e : RunEvent) (ce : ConnectionEvent) : Prop :=
  (ce = .ping → e = .caller .ping ∨ s.gather.live .ping = true) ∧ ce ≠ .call (.background .runExit)

theorem live_of_runs {task : RunTask} (h : s.runs task = true) : s.gather.live task = true :=
  (Bool.and_eq_true_iff.1 h).1

theorem live_of_stops {task : RunTask} (h : s.stops task = true) : s.gather.live task = true :=
  (Bool.and_eq_true_iff.1 h).1

theorem asked_of_stops {task : RunTask} (h : s.stops task = true) : s.gather.asked task = true :=
  (Bool.and_eq_true_iff.1 h).2

/-- The three ways the ping loop goes on from its ping. -/
theorem afterPing_cases (s : Run) (j : Nat) :
    s.afterPing j = { s with pingLoop := none } ∧ s.connection.pc? j = some (.finished .returned) ∨
      (∃ outcome, s.connection.pc? j = some (.finished outcome) ∧ outcome ≠ .returned ∧
        s.afterPing j = s.endTask .ping (.raised (.ping outcome))) ∨
      s.afterPing j = s ∧ ∀ outcome, s.connection.pc? j ≠ some (.finished outcome) := by
  unfold afterPing
  split
  · next h => exact .inl ⟨rfl, h⟩
  · next outcome hne h => exact .inr (.inl ⟨outcome, h, fun heq => hne (heq ▸ rfl), rfl⟩)
  all_goals
    next h =>
    refine .inr (.inr ⟨rfl, fun outcome heq => ?_⟩)
    rw [heq] at h
    cases h

/-- What a step other than a resumption of `run()` changes. -/
structure Passes (s : Run) (e : RunEvent) (s' : Run) : Prop where
  gather : Changes s.gather s'.gather
  connection : s'.connection = s.connection ∨
    ∃ ce, s.Inner e ce ∧ s'.connection = s.connection.step ce

theorem passes_refl (s : Run) (e : RunEvent) : s.Passes e s := ⟨.refl, .inl rfl⟩

theorem passes_act (s : Run) {e : RunEvent} (ce : ConnectionEvent) (h : s.Inner e ce) :
    s.Passes e (s.act ce) := ⟨.refl, .inr ⟨ce, h, rfl⟩⟩

/-- A task ends in a step of the run that may take a step of the connection as well. -/
theorem Passes.endTask {e : RunEvent} {s' : Run} (h : s.Passes e s') (hg : s'.gather = s.gather)
    {task : RunTask} {o : TaskEnd RunError} (ho : o = .cancelled → s.gather.asked task = true)
    (hping : task = .ping → o ≠ .returned) : s.Passes e (s'.endTask task o) := by
  refine ⟨?_, h.connection⟩
  show Changes s.gather (s'.gather.endChild task o)
  rw [hg]
  exact .endTask task o ho hping

theorem passes_afterPing (s : Run) {e : RunEvent} (ce : ConnectionEvent) (h : s.Inner e ce)
    (j : Nat) :
    s.Passes e ((s.act ce).afterPing j) := by
  rcases afterPing_cases (s.act ce) j with ⟨hs, -⟩ | ⟨outcome, -, -, hs⟩ | ⟨hs, -⟩
  · rw [hs]
    exact ⟨.refl, .inr ⟨ce, h, rfl⟩⟩
  · rw [hs]
    exact (passes_act s ce h).endTask rfl nofun fun _ => nofun
  · rw [hs]
    exact passes_act s ce h

theorem passes_step (s : Run) {e : RunEvent} (he : e ≠ .resume) : s.Passes e (s.step e) := by
  cases e with
  | start => exact ⟨.start, .inl rfl⟩
  | caller ce =>
    show s.Passes _ (if s.ofCallers ce then s.act ce else s)
    split
    · next hcaller =>
      refine passes_act s ce ⟨fun hping => .inl (congrArg _ hping), ?_⟩
      rintro rfl
      cases hcaller
    · exact passes_refl s _
  | disconnect => exact ⟨.refl, .inl rfl⟩
  | receive packet =>
    show s.Passes _ (s.receive packet)
    unfold receive
    split
    · dsimp only
      split
      · exact passes_act s _ ⟨nofun, nofun⟩
      · refine (passes_act s _ ⟨?_, ?_⟩).endTask rfl nofun nofun
        · exact nofun
        · exact nofun
    · exact passes_refl s _
  | resumeReadLoop written =>
    show s.Passes _ (s.resumeReadLoop written)
    unfold resumeReadLoop
    split
    · dsimp only
      split
      · exact passes_act s _ ⟨nofun, nofun⟩
      · refine (passes_act s _ ⟨?_, ?_⟩).endTask rfl nofun nofun
        · exact nofun
        · exact nofun
    · exact passes_refl s _
  | readClosed =>
    show s.Passes _ s.readClosed
    unfold readClosed
    split
    · refine (passes_refl s _).endTask rfl (fun ho => ?_) nofun
      split at ho
      · cases ho
      · cases ho
    · exact passes_refl s _
  | readRaises =>
    show s.Passes _ s.readRaises
    unfold readRaises
    split
    · exact (passes_refl s _).endTask rfl nofun nofun
    · exact passes_refl s _
  | cancelRead =>
    show s.Passes _ s.cancelRead
    unfold cancelRead
    split
    · next hstops => exact (passes_refl s _).endTask rfl (fun _ => asked_of_stops hstops) nofun
    · exact passes_refl s _
  | sleepOver =>
    show s.Passes _ s.sleepOver
    unfold sleepOver
    split
    · next hruns => exact ⟨.refl, .inr ⟨.ping, ⟨fun _ => .inr (live_of_runs hruns.1), nofun⟩, rfl⟩⟩
    · exact passes_refl s _
  | resumePing written =>
    show s.Passes _ (s.resumePing written)
    unfold resumePing
    split
    · exact passes_refl s _
    · next j _ =>
      split
      · exact passes_afterPing s (.resumePing j written) ⟨nofun, nofun⟩ j
      · split
        · exact ⟨.dropRequest, .inr ⟨.resumePing j written, ⟨nofun, nofun⟩, rfl⟩⟩
        · exact passes_refl s _
  | timeoutPing =>
    show s.Passes _ s.timeoutPing
    unfold timeoutPing
    split
    · exact passes_refl s _
    · next j _ =>
      split
      · exact passes_afterPing s (.timeoutPing j) ⟨nofun, nofun⟩ j
      · exact passes_refl s _
  | cancelPing =>
    show s.Passes _ s.cancelPing
    unfold cancelPing
    split
    · next hstops =>
      split
      · exact (passes_refl s _).endTask rfl (fun _ => asked_of_stops hstops) fun _ => nofun
      · refine (passes_act s _ ⟨?_, ?_⟩).endTask rfl (fun _ => asked_of_stops hstops) fun _ => nofun
        · exact nofun
        · exact nofun
    · exact passes_refl s _
  | notice task => exact ⟨.notice task, .inl rfl⟩
  | cancel => exact ⟨.cancel, .inl rfl⟩
  | resume => exact absurd rfl he

/-- A resumption of `run()`, with its `finally` clause when it ends. -/
theorem resume_cases (s : Run) :
    s.resume = { s with gather := s.gather.resume } ∧ s.gather.resume.hasEnded = s.gather.hasEnded ∨
      s.gather.hasEnded = false ∧ s.gather.resume.hasEnded = true ∧
        s.resume = { s with gather := s.gather.resume }.act (.call (.background .runExit)) := by
  unfold resume
  dsimp only
  cases hended : s.gather.hasEnded with
  | true =>
    rw [Gather.resume_of_hasEnded hended, hended, if_neg fun h => Bool.false_ne_true h.2]
    exact .inl ⟨rfl, rfl⟩
  | false =>
    cases hnow : s.gather.resume.hasEnded with
    | true => exact .inr ⟨rfl, rfl, if_pos ⟨rfl, rfl⟩⟩
    | false => exact .inl ⟨if_neg fun h => Bool.false_ne_true h.1, rfl⟩

/-! ## The invariant -/

theorem Changes.sound {g g' : Gather RunTask RunError} (h : Changes g g') (hg : g.Sound) :
    g'.Sound := by
  cases h with
  | refl => exact hg
  | start => exact hg.start
  | endTask task o ho hping => exact hg.endChild ho
  | dropRequest => exact hg.dropRequest .ping
  | notice task => exact hg.notice task
  | cancel => exact hg.cancel

/-- The ping loop never returns. -/
theorem Changes.goesOn {g g' : Gather RunTask RunError} (h : Changes g g')
    (hg : g.outcome .ping ≠ some .returned) : g'.outcome .ping ≠ some .returned := by
  cases h with
  | refl => exact hg
  | start => rwa [Gather.outcome_start]
  | endTask task o ho hping =>
    rw [Gather.outcome_endChild]
    split
    · next hi => exact fun heq => hping hi.2.symm (Option.some.inj heq)
    · exact hg
  | dropRequest => rwa [Gather.outcome_dropRequest]
  | notice task => rwa [Gather.outcome_notice]
  | cancel => rwa [Gather.outcome_cancel]

theorem Changes.hasEnded {g g' : Gather RunTask RunError} (h : Changes g g') :
    g'.hasEnded = g.hasEnded := by
  cases h with
  | refl => rfl
  | start => exact Gather.hasEnded_start g
  | endTask task o ho hping => exact Gather.hasEnded_congr (Gather.endChild_frame g task o).1
  | dropRequest => rfl
  | notice task => exact Gather.hasEnded_congr (Gather.stage_notice g task)
  | cancel => exact Gather.hasEnded_congr (Gather.stage_cancel g)

/-- What holds of `run()` and its tasks. -/
structure Inv (s : Run) : Prop where
  gather : s.gather.Sound
  goesOn : s.gather.outcome .ping ≠ some .returned
  dead : s.protocol.dead = s.gather.hasEnded

end Run

/-- Only the exit of `run()` sets `_dead`. -/
theorem Connection.dead_step_of_ne (s : Connection) {e : ConnectionEvent}
    (he : e ≠ .call (.background .runExit)) : (s.step e).protocol.dead = s.protocol.dead := by
  by_cases hcall : ∃ e', e = .call e'
  · obtain ⟨e', rfl⟩ := hcall
    have hprotocol : (s.step (.call e')).protocol = (s.interests.step e').protocol :=
      congrArg Interests.protocol (Connection.interests_step_call s e')
    rw [hprotocol]
    exact Protocol.dead_of_stays
      (Interests.moves_step s.interests fun h => he (congrArg ConnectionEvent.call h)).protocol
  · by_cases hping : e = .ping
    · rw [hping]
      rfl
    · have hi := (Connection.step_ping_frame s e (fun e' h => hcall ⟨e', h⟩) hping).1
      exact congrArg (fun i : Interests => i.protocol.dead) hi

theorem Connection.dead_step_exit (s : Connection) :
    (s.step (.call (.background .runExit))).protocol.dead = true := by
  have hprotocol : (s.step (.call (.background .runExit))).protocol = s.protocol.runExit :=
    congrArg Interests.protocol (Connection.interests_step_call s (.background .runExit))
  rw [hprotocol]
  exact (Protocol.foldl_setFuture_frame (Protocol.awaited s.protocol.state)
    { s.protocol with dead := true, readLoop := .stopped }).2.2.1

namespace Run

variable {s : Run}

theorem Inv.step (h : s.Inv) (e : RunEvent) : (s.step e).Inv := by
  by_cases he : e = .resume
  · rw [he]
    show s.resume.Inv
    have hgoes : s.gather.resume.outcome .ping ≠ some .returned := by
      rw [Gather.outcome_resume]
      exact h.goesOn
    rcases resume_cases s with ⟨hs, hended⟩ | ⟨-, hended, hs⟩
    · rw [hs]
      exact ⟨h.gather.resume, hgoes, h.dead.trans hended.symm⟩
    · rw [hs]
      exact ⟨h.gather.resume, hgoes, (Connection.dead_step_exit _).trans hended.symm⟩
  · obtain ⟨hg, hc⟩ := passes_step s he
    refine ⟨hg.sound h.gather, hg.goesOn h.goesOn, ?_⟩
    rw [hg.hasEnded, ← h.dead]
    rcases hc with hc | ⟨ce, hinner, hc⟩
    · exact congrArg (fun c : Connection => c.protocol.dead) hc
    · rw [protocol, hc]
      exact Connection.dead_step_of_ne _ hinner.2

theorem inv_fresh (version : Version) (maxPublishQos : QoS) (strippedPrefixes : List String) :
    (fresh version maxPublishQos strippedPrefixes).Inv where
  gather := Gather.sound_new
  goesOn := nofun
  dead := rfl

/-! ## Runs -/

end Run

end Zmqtt
