/-
  The keepalive of `MQTTProtocol` (`_ping_loop`, `ping` and `run` of `_internal/protocol.py`):
  once the broker answers no PINGREQ any more, `run()` ends.

  `remaining` is the measure: what is left of the round of the ping loop, of the read loop and
  of `run()` itself. The steps of these three go down in it, and of all other steps only a
  PINGRESP goes up.
-/
import Zmqtt.Session.RunTasks

namespace Zmqtt

namespace Connection

variable {s : Connection} {j : Nat}

/-- The pings change with a PINGRESP, the exit of `run()` and their own steps. -/
theorem pings_step_call (s : Connection) {e : InterestEvent}
    (hpingresp : e ≠ .background (.receive .pingresp)) (hexit : e ≠ .background .runExit) :
    (s.step (.call e)).pings = s.pings := by
  unfold Connection.step
  dsimp only
  split
  · exact absurd rfl hpingresp
  · exact absurd rfl hexit
  · rfl

/-- A step that is not one of ping `j`, and in which nobody completes its future. -/
def Spares (j : Nat) (e : ConnectionEvent) : Prop :=
  e ≠ .call (.background (.receive .pingresp)) ∧ e ≠ .call (.background .runExit) ∧
    (∀ written, e ≠ .resumePing j written) ∧ e ≠ .timeoutPing j ∧ e ≠ .cancelPing j

theorem setPc_other {k : Nat} (hne : k ≠ j) (pc : PingPc) :
    (s.setPc k pc).pc? j = s.pc? j ∧ (s.setPc k pc).future? j = s.future? j := by
  rw [pc?_setPc, if_neg hne]
  exact ⟨rfl, future?_setPc ..⟩

theorem spared (hj : j < s.pings.length) {e : ConnectionEvent} (he : Spares j e) :
    (s.step e).pc? j = s.pc? j ∧ (s.step e).future? j = s.future? j := by
  obtain ⟨hpingresp, hexit, hresume, htimeout, hcancel⟩ := he
  cases e with
  | call e =>
    have hp := pings_step_call s (fun h => hpingresp (congrArg _ h)) fun h => hexit (congrArg _ h)
    exact ⟨pc?_congr hp j, future?_congr hp j⟩
  | ping => exact ⟨pc?_ping_of_lt hj, future?_ping_of_lt hj⟩
  | resumePing k written =>
    have hne : k ≠ j := fun h => hresume written (by rw [h])
    rcases resumePing_cases s k written with hs | ⟨pc, hs, -⟩
    · exact ⟨congrArg (fun s => pc? s j) hs, congrArg (fun s => future? s j) hs⟩
    · show (s.resumePing k written).pc? j = _ ∧ (s.resumePing k written).future? j = _
      rw [hs]
      exact setPc_other hne pc
  | timeoutPing k =>
    have hne : k ≠ j := fun h => htimeout (by rw [h])
    show (s.timeoutPing k).pc? j = _ ∧ (s.timeoutPing k).future? j = _
    rcases timeoutPing_cases s k with hs | ⟨-, ⟨-, hs⟩ | ⟨-, hs⟩⟩
    · rw [hs]
      exact ⟨rfl, rfl⟩
    · rw [hs]
      exact setPc_other hne _
    · rw [hs]
      exact setPc_other (s := { s with pingWaiters := s.pingWaiters.erase k }) hne _
  | cancelPing k =>
    have hne : k ≠ j := fun h => hcancel (by rw [h])
    show (s.cancelPing k).pc? j = _ ∧ (s.cancelPing k).future? j = _
    rcases cancelPing_cases s k with hs | ⟨hs, -⟩
    · rw [hs]
      exact ⟨rfl, rfl⟩
    · rw [hs]
      exact setPc_other hne _

theorem resumePing_next (s : Connection) (j : Nat) (written : Bool) :
    s.resumePing j written = s ∧ s.pc? j ≠ some .sending ∨
      (s.pc? j = some .sending ∧ s.future? j = some .pending ∧
        s.resumePing j written = s.setPc j .waiting) ∨
      (s.future? j = some .result ∧ s.resumePing j written = s.setPc j (.finished .returned)) ∨
      ∃ outcome, outcome ≠ .returned ∧ s.resumePing j written = s.setPc j (.finished outcome) := by
  cases hj : s.pings[j]? with
  | none =>
    left
    rw [resumePing, pc?, hj]
    exact ⟨rfl, by decide⟩
  | some ping =>
    obtain ⟨future, pc⟩ := ping
    have hpc : s.pc? j = some pc := by
      rw [pc?, hj]
      rfl
    have hfuture : s.future? j = some future := by
      rw [future?, hj]
      rfl
    rw [resumePing, hj, hpc, hfuture]
    cases pc with
    | finished outcome => exact .inl ⟨rfl, fun h => by cases h⟩
    | sending =>
      cases future with
      | pending =>
        cases written with
        | true => exact .inr (.inl ⟨rfl, rfl, rfl⟩)
        | false => exact .inr (.inr (.inr ⟨.writeFailed, by decide, rfl⟩))
      | result =>
        cases written with
        | true => exact .inr (.inr (.inl ⟨rfl, rfl⟩))
        | false => exact .inr (.inr (.inr ⟨.writeFailed, by decide, rfl⟩))
      | disconnected =>
        cases written with
        | true => exact .inr (.inr (.inr ⟨.disconnected, by decide, rfl⟩))
        | false => exact .inr (.inr (.inr ⟨.writeFailed, by decide, rfl⟩))
    | waiting =>
      cases future with
      | pending => exact .inl ⟨rfl, by decide⟩
      | result => exact .inr (.inr (.inl ⟨rfl, rfl⟩))
      | disconnected => exact .inr (.inr (.inr ⟨.disconnected, by decide, rfl⟩))

/-- No step of the calls moves a ping. -/
theorem pc?_step_call (s : Connection) (e : InterestEvent) (j : Nat) :
    (s.step (.call e)).pc? j = s.pc? j := by
  rcases step_call_pings s e with ⟨-, hp, -⟩ | ⟨-, hp, -⟩ | ⟨-, -, -, hpc, -⟩
  · exact pc?_congr hp j
  · refine (pc?_congr hp j).trans ?_
    unfold handlePingresp
    split
    · rfl
    · exact pc?_setPing ..
  · exact hpc j

/-- A ping that waits ends with its timeout. -/
theorem timeoutPing_moves {j : Nat} (hpc : s.pc? j = some .waiting) :
    (s.timeoutPing j).pc? j ≠ some .waiting := by
  obtain ⟨⟨future, pc⟩, hj, hwaiting⟩ := Option.map_eq_some_iff.1 hpc
  obtain rfl : pc = .waiting := hwaiting
  intro heq
  rw [timeoutPing, hj] at heq
  have hset : (setPc { s with pingWaiters := s.pingWaiters.erase j } j
      (.finished (if j ∈ s.pingWaiters then .timedOut else .notWaiting))).pc? j =
        some .waiting := heq
  have hpc : pc? { s with pingWaiters := s.pingWaiters.erase j } j = some .waiting := hpc
  rw [pc?_setPc, if_pos rfl, hpc] at hset
  cases hset

/-- A ping that begins. -/
theorem new_ping (s : Connection) : s.ping.pc? s.pings.length = some .sending ∧
    s.ping.future? s.pings.length = some .pending := by
  have hnew : s.ping.pings[s.pings.length]? = some {} := List.getElem?_concat_length ..
  rw [pc?, future?, hnew]
  exact ⟨rfl, rfl⟩

theorem pc?_setPc_self {pc pc' : PingPc} (h : s.pc? j = some pc') :
    (s.setPc j pc).pc? j = some pc := by
  rw [pc?_setPc, if_pos rfl, h]
  rfl

/-- A ping that sends goes on, or ends. -/
theorem resumePing_moves (hpc : s.pc? j = some .sending) (written : Bool) :
    (s.resumePing j written).pc? j ≠ some .sending := by
  rcases resumePing_next s j written with ⟨-, hne⟩ | ⟨-, -, hs⟩ | ⟨-, hs⟩ | ⟨outcome, -, hs⟩
  · exact absurd hpc hne
  all_goals
    rw [hs, pc?_setPc_self hpc]
    exact fun h => by cases h

end Connection

namespace Run

variable {s : Run}

/-! ## The ping loop -/

/-- The ping that the ping loop is in has not ended. -/
def Pinging (s : Run) : Prop :=
  ∀ j, s.pingLoop = some j → s.gather.outcome .ping = none →
    s.connection.pc? j = some .sending ∨ s.connection.pc? j = some .waiting

/-- What a step of the ping loop does. -/
inductive LoopStep (s : Run) : Run → Prop where
  | idle : LoopStep s s
  | begins (hlive : s.gather.live .ping = true) (hsleeps : s.pingLoop = none) :
      LoopStep s { s.act .ping with pingLoop := some s.connection.pings.length }
  | waits {j : Nat} (hlive : s.gather.live .ping = true) (hloop : s.pingLoop = some j)
      (hpc : s.connection.pc? j = some .sending)
      (hfuture : s.connection.future? j = some .pending) :
      LoopStep s { s with connection := s.connection.setPc j .waiting }
  | returns {j : Nat} (hlive : s.gather.live .ping = true) (hloop : s.pingLoop = some j)
      (hfuture : s.connection.future? j = some .result) (connection : Connection)
      (gather : Gather RunTask RunError)
      (hgather : gather = s.gather ∨ gather = s.gather.dropRequest .ping) :
      LoopStep s { s with connection, gather, pingLoop := none }
  | ends (hlive : s.gather.live .ping = true) (connection : Connection) (o : TaskEnd RunError)
      (hreturned : o ≠ .returned) : LoopStep s ({ s with connection }.endTask .ping o)

theorem loopStep_sleepOver (s : Run) : s.LoopStep s.sleepOver := by
  unfold sleepOver
  split
  · next h => exact .begins (live_of_runs h.1) (Option.isNone_iff_eq_none.1 h.2)
  · exact .idle

/-- Ping `j` of the ping loop has ended with `outcome`. -/
theorem loopStep_ended {j : Nat} {connection : Connection} {outcome : PingOutcome}
    (hlive : s.gather.live .ping = true)
    (hpc : connection.pc? j = some (.finished outcome)) (hne : outcome ≠ .returned) :
    s.LoopStep ({ s with connection }.afterPing j) := by
  rcases afterPing_cases { s with connection } j with ⟨-, hpc'⟩ | ⟨outcome', -, -, hs⟩ | ⟨-, hpc'⟩
  · rw [hpc] at hpc'
    cases hpc'
    exact absurd rfl hne
  · rw [hs]
    exact .ends hlive connection _ nofun
  · exact absurd hpc (hpc' outcome)

/-- Ping `j` of the ping loop goes on. -/
theorem afterPing_of_pc {j : Nat} {connection : Connection}
    (hpc : connection.pc? j = some .sending ∨ connection.pc? j = some .waiting) :
    Run.afterPing { s with connection } j = { s with connection } := by
  unfold afterPing
  dsimp only
  rcases hpc with hpc | hpc
  · rw [hpc]
  · rw [hpc]

theorem loopStep_resumePing (h : s.Pinging) (written : Bool) :
    s.LoopStep (s.resumePing written) := by
  unfold resumePing
  split
  · exact .idle
  · next j hloop =>
    split
    · next hruns =>
      have hlive := live_of_runs hruns
      have hpc := h j hloop (Gather.outcome_of_live hlive)
      have hsome : ∃ pc, s.connection.pc? j = some pc := hpc.elim (fun h => ⟨_, h⟩) fun h => ⟨_, h⟩
      obtain ⟨pc, hsome⟩ := hsome
      show s.LoopStep (Run.afterPing { s with connection := s.connection.resumePing j written } j)
      rcases Connection.resumePing_next s.connection j written with
        ⟨hs, -⟩ | ⟨hsending, hpending, hs⟩ | ⟨hresult, hs⟩ | ⟨outcome, hne, hs⟩
      · rw [hs, afterPing_of_pc hpc]
        exact .idle
      · rw [hs, afterPing_of_pc (.inr (Connection.pc?_setPc_self hsome))]
        exact .waits hlive hloop hsending hpending
      · rw [hs, afterPing]
        dsimp only
        rw [Connection.pc?_setPc_self hsome]
        exact .returns hlive hloop hresult _ _ (.inl rfl)
      · rw [hs]
        exact loopStep_ended hlive (Connection.pc?_setPc_self hsome) hne
    · split
      · next hswallows =>
        simp only [swallows, Bool.and_eq_true, decide_eq_true_eq] at hswallows
        exact .returns (live_of_stops hswallows.1.1) hloop hswallows.2 _ _ (.inr rfl)
      · exact .idle

theorem loopStep_timeoutPing (h : s.Pinging) : s.LoopStep s.timeoutPing := by
  unfold timeoutPing
  split
  · exact .idle
  · next j hloop =>
    split
    · next hruns =>
      have hlive := live_of_runs hruns
      have hpc := h j hloop (Gather.outcome_of_live hlive)
      show s.LoopStep (Run.afterPing { s with connection := s.connection.timeoutPing j } j)
      rcases Connection.timeoutPing_cases s.connection j with hs | ⟨hwaiting, ⟨-, hs⟩ | ⟨-, hs⟩⟩
      · rw [hs, afterPing_of_pc hpc]
        exact .idle
      · rw [hs]
        exact loopStep_ended hlive (Connection.pc?_setPc_self hwaiting) nofun
      · rw [hs]
        exact loopStep_ended hlive (Connection.pc?_setPc_self
          (s := { s.connection with pingWaiters := s.connection.pingWaiters.erase j }) hwaiting)
          nofun
    · exact .idle

theorem loopStep_cancelPing (s : Run) : s.LoopStep s.cancelPing := by
  unfold cancelPing
  split
  · next hstops =>
    split
    · exact .ends (live_of_stops hstops) s.connection _ nofun
    · exact .ends (live_of_stops hstops) _ _ nofun
  · exact .idle

/-! ## What is left -/

/-- The steps of the ping loop until it ends, when no further PINGRESP comes. -/
def pingLeft (s : Run) : Nat :=
  if (s.gather.outcome .ping).isSome then 0
  else
    match s.pingLoop with
    | none => 3
    | some j =>
        if s.connection.future? j = some .pending then
          if s.connection.pc? j = some .sending then 2 else 1
        else 4

def readLeft (s : Run) : Nat := if (s.gather.outcome .read).isSome then 0 else 1

def remaining (s : Run) : Nat := s.gather.left + s.pingLeft + s.readLeft

theorem pingLeft_le (s : Run) : s.pingLeft ≤ 4 := by
  unfold pingLeft
  split
  · omega
  · split
    · omega
    · split
      · split
        · omega
        · omega
      · omega

theorem remaining_le (s : Run) : s.remaining ≤ 10 := by
  have hping := s.pingLeft_le
  have hread : s.readLeft ≤ 1 := by
    unfold readLeft
    split
    · omega
    · omega
  have hstage : s.gather.stage.left ≤ 3 := by
    cases s.gather.stage with
    | created => exact le_refl 3
    | gathering => exact Nat.le_succ 2
    | cleaning _ => exact Nat.le_add_left 1 2
    | ended _ => exact Nat.zero_le 3
    | skipped => exact Nat.zero_le 3
  have hnoticed : (Finset.univ.filter fun i => s.gather.noticed i = false).card ≤ 2 :=
    Finset.card_le_univ _
  unfold remaining Gather.left
  omega

theorem pingLeft_of_ended {o : TaskEnd RunError} (h : s.gather.outcome .ping = some o) :
    s.pingLeft = 0 := by
  rw [pingLeft, h]
  rfl

section Phases

variable {j : Nat} (h : s.gather.outcome .ping = none)
include h

theorem pingLeft_sleeping (hsleeps : s.pingLoop = none) : s.pingLeft = 3 := by
  rw [pingLeft, h, hsleeps]
  rfl

theorem pingLeft_sending (hloop : s.pingLoop = some j)
    (hfuture : s.connection.future? j = some .pending) (hpc : s.connection.pc? j = some .sending) :
    s.pingLeft = 2 := by
  rw [pingLeft, h, hloop]
  dsimp only
  rw [if_neg nofun, if_pos hfuture, if_pos hpc]

theorem pingLeft_waiting (hloop : s.pingLoop = some j)
    (hfuture : s.connection.future? j = some .pending) (hpc : s.connection.pc? j = some .waiting) :
    s.pingLeft = 1 := by
  rw [pingLeft, h, hloop]
  dsimp only
  rw [if_neg nofun, if_pos hfuture, hpc, if_neg (by decide)]

theorem pingLeft_answered (hloop : s.pingLoop = some j)
    (hfuture : s.connection.future? j ≠ some .pending) : s.pingLeft = 4 := by
  rw [pingLeft, h, hloop]
  dsimp only
  rw [if_neg nofun, if_neg hfuture]

theorem pingLeft_pos : 0 < s.pingLeft := by
  rw [pingLeft, h, if_neg nofun]
  split
  · omega
  · split
    · split
      · omega
      · omega
    · omega

end Phases

/-- A task that ends has one step less. -/
theorem remaining_endTask {task : RunTask} (h : s.gather.live task = true) (connection : Connection)
    (o : TaskEnd RunError) (hsame : task = .read → connection = s.connection) :
    (Run.endTask { s with connection } task o).remaining < s.remaining := by
  have hleft : (s.gather.endChild task o).left = s.gather.left := Gather.left_endChild ..
  have hout : (s.gather.endChild task o).outcome task = some o := by
    rw [Gather.outcome_endChild, if_pos ⟨h, rfl⟩]
  have hother : ∀ task', task' ≠ task →
      (s.gather.endChild task o).outcome task' = s.gather.outcome task' := by
    intro task' hne
    rw [Gather.outcome_endChild, if_neg fun hi => hne hi.2]
  unfold remaining
  cases task with
  | read =>
    rw [hsame rfl]
    have hread : s.readLeft = 1 := by
      rw [readLeft, Gather.outcome_of_live h]
      rfl
    have hread' : (Run.endTask { s with connection := s.connection } .read o).readLeft = 0 := by
      show (if ((s.gather.endChild .read o).outcome .read).isSome then 0 else 1) = 0
      rw [hout]
      rfl
    have hping :
        (Run.endTask { s with connection := s.connection } .read o).pingLeft = s.pingLeft := by
      rw [pingLeft, pingLeft]
      show (if ((s.gather.endChild .read o).outcome .ping).isSome then 0 else _) = _
      rw [hother .ping (by decide)]
      rfl
    rw [hread, hread', hping]
    show (s.gather.endChild .read o).left + _ + _ < _
    omega
  | ping =>
    have hpos := pingLeft_pos (Gather.outcome_of_live h)
    have hping : (Run.endTask { s with connection } .ping o).pingLeft = 0 := pingLeft_of_ended hout
    have hread : (Run.endTask { s with connection } .ping o).readLeft = s.readLeft := by
      show (if ((s.gather.endChild .ping o).outcome .read).isSome then 0 else 1) = _
      rw [hother .read (by decide)]
      rfl
    rw [hping, hread]
    show (s.gather.endChild .ping o).left + _ + _ < _
    omega

/-- The ping loop goes on, and neither task ends. -/
theorem remaining_lt {s' : Run} (hleft : s'.gather.left = s.gather.left)
    (hread : s'.gather.outcome .read = s.gather.outcome .read) (hping : s'.pingLeft < s.pingLeft) :
    s'.remaining < s.remaining := by
  have hreadLeft : s'.readLeft = s.readLeft := by rw [readLeft, readLeft, hread]
  unfold remaining
  omega

/-- A step of the ping loop leaves one step less. -/
theorem LoopStep.remaining {s' : Run} (h : s.LoopStep s') :
    s' = s ∨ s'.remaining < s.remaining := by
  cases h with
  | idle => exact .inl rfl
  | begins hlive hsleeps =>
    have hnone := Gather.outcome_of_live hlive
    obtain ⟨hpc, hfuture⟩ := s.connection.new_ping
    have hafter :
        Run.pingLeft { s.act .ping with pingLoop := some s.connection.pings.length } = 2 :=
      pingLeft_sending hnone rfl hfuture hpc
    refine .inr (remaining_lt rfl rfl ?_)
    rw [hafter, pingLeft_sleeping hnone hsleeps]
    omega
  | @waits j hlive hloop hpc hfuture =>
    have hnone := Gather.outcome_of_live hlive
    have hafter : Run.pingLeft { s with connection := s.connection.setPc j .waiting } = 1 :=
      pingLeft_waiting hnone hloop ((Connection.future?_setPc ..).trans hfuture)
        (Connection.pc?_setPc_self hpc)
    refine .inr (remaining_lt rfl rfl ?_)
    rw [hafter, pingLeft_sending hnone hloop hfuture hpc]
    omega
  | @returns j hlive hloop hfuture connection gather hgather =>
    have hnone := Gather.outcome_of_live hlive
    have hsame : gather.left = s.gather.left ∧
        ∀ task, gather.outcome task = s.gather.outcome task := by
      rcases hgather with rfl | rfl
      · exact ⟨rfl, fun _ => rfl⟩
      · exact ⟨rfl, Gather.outcome_dropRequest s.gather .ping⟩
    have hafter : Run.pingLeft { s with connection, gather, pingLoop := none } = 3 :=
      pingLeft_sleeping ((hsame.2 .ping).trans hnone) rfl
    refine .inr (remaining_lt hsame.1 (hsame.2 .read) ?_)
    rw [hafter, pingLeft_answered hnone hloop (by rw [hfuture]; decide)]
    omega
  | ends hlive connection o hreturned => exact .inr (remaining_endTask hlive connection o nofun)

theorem LoopStep.pinging {s' : Run} (h : s.LoopStep s') (hp : s.Pinging) : s'.Pinging := by
  cases h with
  | idle => exact hp
  | begins hlive hsleeps =>
    intro j hj _
    cases hj
    exact .inl s.connection.new_ping.1
  | @waits j hlive hloop hpc hfuture =>
    intro k hk _
    rw [hloop] at hk
    cases hk
    exact .inr (Connection.pc?_setPc_self hpc)
  | returns hlive hloop hfuture connection gather hgather =>
    intro k hk _
    cases hk
  | ends hlive connection o hreturned =>
    intro k _ hnone
    have hsome : (s.gather.endChild .ping o).outcome .ping = some o := by
      rw [Gather.outcome_endChild, if_pos ⟨hlive, rfl⟩]
    have hnone : (s.gather.endChild .ping o).outcome .ping = none := hnone
    rw [hsome] at hnone
    cases hnone

/-! ## All other steps -/

/-- Two runs whose ping loops are in the same place. -/
theorem pingLeft_congr {s' : Run} (hloop : s'.pingLoop = s.pingLoop)
    (hout : s'.gather.outcome .ping = s.gather.outcome .ping)
    (hping : ∀ j, s.pingLoop = some j → s.gather.outcome .ping = none →
      s'.connection.pc? j = s.connection.pc? j ∧ s'.connection.future? j = s.connection.future? j) :
    s'.pingLeft = s.pingLeft := by
  cases hend : s.gather.outcome .ping with
  | some o => rw [pingLeft_of_ended hend, pingLeft_of_ended (hout.trans hend)]
  | none =>
    cases hj : s.pingLoop with
    | none => rw [pingLeft_sleeping hend hj, pingLeft_sleeping (hout.trans hend) (hloop.trans hj)]
    | some j =>
      obtain ⟨hpc, hfuture⟩ := hping j hj hend
      rw [pingLeft, pingLeft, hout, hloop, hj, hend]
      dsimp only
      rw [hpc, hfuture]

theorem Pinging.congr (h : s.Pinging) {s' : Run} (hloop : s'.pingLoop = s.pingLoop)
    (hout : s'.gather.outcome .ping = s.gather.outcome .ping)
    (hping : ∀ j, s.pingLoop = some j → s.gather.outcome .ping = none →
      s'.connection.pc? j = s.connection.pc? j) : s'.Pinging := by
  intro j hj hnone
  rw [hloop] at hj
  rw [hout] at hnone
  rw [hping j hj hnone]
  exact h j hj hnone

/-- A step of the connection that spares the ping of the ping loop. -/
theorem act_spares (h : s.Pinging) {e : ConnectionEvent}
    (he : ∀ j, s.pingLoop = some j → Connection.Spares j e) :
    (s.act e).Pinging ∧ (s.act e).remaining = s.remaining := by
  have hsame : ∀ j, s.pingLoop = some j → s.gather.outcome .ping = none →
      (s.act e).connection.pc? j = s.connection.pc? j ∧
        (s.act e).connection.future? j = s.connection.future? j := by
    intro j hj hnone
    have hlt : j < s.connection.pings.length := by
      rcases h j hj hnone with hpc | hpc
      · exact Connection.lt_of_pc? hpc
      · exact Connection.lt_of_pc? hpc
    exact Connection.spared hlt (he j hj)
  refine ⟨h.congr rfl rfl fun j hj hnone => (hsame j hj hnone).1, ?_⟩
  have hping : (s.act e).pingLeft = s.pingLeft := pingLeft_congr rfl rfl hsame
  unfold remaining
  rw [hping]
  rfl

/-- The read loop ends. -/
theorem endRead (h : s.Pinging) (hlive : s.gather.live .read = true) (o : TaskEnd RunError) :
    (s.endTask .read o).Pinging ∧ (s.endTask .read o).remaining < s.remaining := by
  refine ⟨h.congr rfl ?_ fun _ _ _ => rfl, remaining_endTask hlive s.connection o fun _ => rfl⟩
  show (s.gather.endChild .read o).outcome .ping = _
  rw [Gather.outcome_endChild, if_neg fun hi => absurd hi.2 (by decide)]

/-- A step of the parent. -/
theorem gatherStep (h : s.Pinging) {g : Gather RunTask RunError}
    (hout : ∀ task, g.outcome task = s.gather.outcome task) :
    Run.Pinging { s with gather := g } ∧
      Run.remaining { s with gather := g } + s.gather.left = s.remaining + g.left := by
  refine ⟨h.congr rfl (hout .ping) fun _ _ _ => rfl, ?_⟩
  have hping : Run.pingLeft { s with gather := g } = s.pingLeft :=
    pingLeft_congr rfl (hout .ping) fun _ _ _ => ⟨rfl, rfl⟩
  have hread : Run.readLeft { s with gather := g } = s.readLeft := by
    rw [readLeft, readLeft]
    dsimp only
    rw [hout]
  unfold remaining
  rw [hping, hread]
  dsimp only
  omega

/-- The ping of the ping loop is spared by the steps of callers. -/
theorem spares_of_callers {e : ConnectionEvent} (h : s.ofCallers e = true) {j : Nat}
    (hj : s.pingLoop = some j) : Connection.Spares j e := by
  refine ⟨?_, ?_, fun written => ?_, ?_, ?_⟩
  · rintro rfl
    cases h
  · rintro rfl
    cases h
  all_goals
    rintro rfl
    have hne := of_decide_eq_true h
    exact hne hj

/-- The steps of `run()` and of its two tasks on their way to the end. -/
def isOwn : RunEvent → Bool
  | .start | .cancelRead | .sleepOver | .resumePing _ | .timeoutPing | .cancelPing => true
  | .notice _ | .resume => true
  | .caller _ | .disconnect | .receive _ | .resumeReadLoop _ | .readClosed | .readRaises => false
  | .cancel => false

/-- A step without a PINGRESP: it leaves no more to do, and an own step less or nothing new. -/
structure Advances (s : Run) (e : RunEvent) (s' : Run) : Prop where
  pinging : s'.Pinging
  le : s'.remaining ≤ s.remaining
  own : isOwn e = true → s' = s ∨ s'.remaining < s.remaining

theorem advances_refl (h : s.Pinging) (e : RunEvent) : s.Advances e s :=
  ⟨h, le_refl _, fun _ => .inl rfl⟩

theorem LoopStep.advances {s' : Run} (h : s.LoopStep s') (hp : s.Pinging) (e : RunEvent) :
    s.Advances e s' := by
  refine ⟨h.pinging hp, ?_, fun _ => h.remaining⟩
  rcases h.remaining with rfl | hlt
  · exact le_refl _
  · exact hlt.le

/-- A step of the parent that is one of its own. -/
theorem advances_gather (h : s.Pinging) (e : RunEvent) {g : Gather RunTask RunError}
    (hout : ∀ task, g.outcome task = s.gather.outcome task)
    (hleft : g = s.gather ∨ g.left < s.gather.left) : s.Advances e { s with gather := g } := by
  obtain ⟨hpinging, hsum⟩ := gatherStep h hout
  rcases hleft with rfl | hlt
  · exact advances_refl h e
  · exact ⟨hpinging, by omega, fun _ => .inr (by omega)⟩

theorem advances_endRead (h : s.Pinging) (hlive : s.gather.live .read = true) (e : RunEvent)
    (o : TaskEnd RunError) : s.Advances e (s.endTask .read o) := by
  obtain ⟨hpinging, hlt⟩ := endRead h hlive o
  exact ⟨hpinging, hlt.le, fun _ => .inr hlt⟩

/-- A step that is not an own one, followed by the end of the read loop or not. -/
theorem advances_act (h : s.Pinging) {e : RunEvent} (he : isOwn e = false) {ce : ConnectionEvent}
    (hce : ∀ j, s.pingLoop = some j → Connection.Spares j ce) :
    s.Advances e (s.act ce) ∧ (s.gather.live .read = true → ∀ o,
      s.Advances e ((s.act ce).endTask .read o)) := by
  obtain ⟨hpinging, hremaining⟩ := act_spares h hce
  refine ⟨⟨hpinging, hremaining.le, fun hown => ?_⟩, fun hlive o => ?_⟩
  · rw [he] at hown
    cases hown
  · obtain ⟨hpinging', hlt⟩ := endRead hpinging hlive o
    exact ⟨hpinging', by omega, fun _ => .inr (by omega)⟩

theorem advances_resume (hinv : s.Inv) (h : s.Pinging) : s.Advances .resume s.resume := by
  have hout := Gather.outcome_resume s.gather
  rcases resume_cases s with ⟨hs, -⟩ | ⟨hnot, hended, hs⟩
  · rw [hs]
    exact advances_gather h _ hout (Gather.left_resume s.gather)
  · -- `run()` has ended, and so have its tasks
    rw [hs]
    obtain ⟨o, hstage⟩ := Gather.hasEnded_iff.1 hended
    have hall := (hinv.gather.resume.ended o hstage).2
    obtain ⟨opg, hopg⟩ := Option.isSome_iff_exists.1 (hall .ping)
    have hlt : s.gather.resume.left < s.gather.left := by
      refine (Gather.left_resume s.gather).resolve_left fun heq => ?_
      rw [heq, hnot] at hended
      cases hended
    obtain ⟨-, hsum⟩ := gatherStep h hout
    have hafter : ∀ ce, (Run.act { s with gather := s.gather.resume } ce).remaining =
        Run.remaining { s with gather := s.gather.resume } := by
      intro ce
      unfold remaining
      rw [pingLeft_of_ended (s := Run.act { s with gather := s.gather.resume } ce) hopg,
        pingLeft_of_ended (s := { s with gather := s.gather.resume }) hopg]
      rfl
    refine ⟨fun j _ hnone => ?_, ?_, fun _ => .inr ?_⟩
    · have hnone : s.gather.resume.outcome .ping = none := hnone
      rw [hopg] at hnone
      cases hnone
    · rw [hafter]
      omega
    · rw [hafter]
      omega

theorem advances_step (hinv : s.Inv) (h : s.Pinging) {e : RunEvent} (he : e ≠ .receive .pingresp) :
    s.Advances e (s.step e) := by
  cases e with
  | start => exact advances_gather h _ (Gather.outcome_start s.gather) (Gather.left_start s.gather)
  | caller ce =>
    show s.Advances _ (if s.ofCallers ce then s.act ce else s)
    split
    · next hcaller => exact (advances_act h rfl fun j hj => spares_of_callers hcaller hj).1
    · exact advances_refl h _
  | disconnect => exact ⟨h, le_refl _, nofun⟩
  | receive packet =>
    have hspares : ∀ j, s.pingLoop = some j →
        Connection.Spares j (.call (.background (.receive packet))) := by
      refine fun j _ => ⟨?_, nofun, fun _ => nofun, nofun, nofun⟩
      rintro heq
      cases heq
      exact he rfl
    show s.Advances _ (s.receive packet)
    unfold receive
    split
    · next hruns =>
      dsimp only
      obtain ⟨hact, hends⟩ := advances_act h (e := .receive packet) rfl hspares
      split
      · exact hact
      · exact hends (live_of_runs hruns.1) _
    · exact advances_refl h _
  | resumeReadLoop written =>
    have hspares : ∀ j, s.pingLoop = some j →
        Connection.Spares j (.call (.background (.resumeReadLoop written))) :=
      fun j _ => ⟨nofun, nofun, fun _ => nofun, nofun, nofun⟩
    show s.Advances _ (s.resumeReadLoop written)
    unfold resumeReadLoop
    split
    · next hruns =>
      dsimp only
      obtain ⟨hact, hends⟩ := advances_act h (e := .resumeReadLoop written) rfl hspares
      split
      · exact hact
      · exact hends (live_of_runs hruns.1) _
    · exact advances_refl h _
  | readClosed =>
    show s.Advances _ s.readClosed
    unfold readClosed
    split
    · next hruns => exact advances_endRead h (live_of_runs hruns.1) _ _
    · exact advances_refl h _
  | readRaises =>
    show s.Advances _ s.readRaises
    unfold readRaises
    split
    · next hruns => exact advances_endRead h (live_of_runs hruns.1) _ _
    · exact advances_refl h _
  | cancelRead =>
    show s.Advances _ s.cancelRead
    unfold cancelRead
    split
    · next hstops => exact advances_endRead h (live_of_stops hstops) _ _
    · exact advances_refl h _
  | sleepOver => exact (loopStep_sleepOver s).advances h _
  | resumePing written => exact (loopStep_resumePing h written).advances h _
  | timeoutPing => exact (loopStep_timeoutPing h).advances h _
  | cancelPing => exact (loopStep_cancelPing s).advances h _
  | notice task =>
    exact advances_gather h _ (Gather.outcome_notice s.gather task)
      (Gather.left_notice s.gather task)
  | cancel =>
    obtain ⟨hp, hsum⟩ := gatherStep h (Gather.outcome_cancel s.gather)
    rw [Gather.left_cancel] at hsum
    exact ⟨hp, (Nat.add_right_cancel hsum).le, nofun⟩
  | resume => exact advances_resume hinv h

theorem pinging_step (hinv : s.Inv) (h : s.Pinging) (e : RunEvent) : (s.step e).Pinging := by
  by_cases he : e = .receive .pingresp
  · subst he
    show (s.receive .pingresp).Pinging
    unfold receive
    split
    · exact h.congr rfl rfl fun j _ _ => Connection.pc?_step_call s.connection _ j
    · exact h
  · exact (advances_step hinv h he).pinging

/-! ## A broker that does not answer -/

/-- A read loop that was told to stop is told so for good. -/
def Told (s : Run) : Prop :=
  ∀ failure, s.gather.stage = .cleaning failure → s.gather.asked .read = true

theorem gather_resume (s : Run) : s.resume.gather = s.gather.resume := by
  rcases resume_cases s with ⟨hs, -⟩ | ⟨-, -, hs⟩
  · rw [hs]
  · rw [hs]
    rfl

theorem Changes.told {g g' : Gather RunTask RunError} (h : Changes g g')
    {failure : TaskEnd RunError} (hs : g'.stage = .cleaning failure)
    (hold : g.stage = .cleaning failure → g.asked .read = true) : g'.asked .read = true := by
  cases h with
  | refl => exact hold hs
  | start =>
    unfold Gather.start at hs ⊢
    split at hs
    · dsimp only at hs
      split at hs
      · cases hs
      · cases hs
    · exact hold hs
  | endTask task o ho hping =>
    rw [(Gather.endChild_frame g task o).1] at hs
    rw [Gather.asked_endChild]
    exact hold hs
  | dropRequest => exact hold hs
  | notice task =>
    rw [Gather.stage_notice] at hs
    rw [Gather.asked_notice]
    exact hold hs
  | cancel =>
    rw [Gather.stage_cancel] at hs
    exact Gather.asked_cancel (hold hs)

theorem Told.step (h : s.Told) (e : RunEvent) : (s.step e).Told := by
  by_cases he : e = .resume
  · subst he
    intro failure hs
    have hg : (s.step .resume).gather = s.gather.resume := gather_resume s
    rw [hg] at hs ⊢
    rcases Gather.asked_resume hs with heq | hall
    · rw [heq] at hs ⊢
      exact h failure hs
    · exact hall .read
  · intro failure hs
    obtain ⟨hchanges, -⟩ := passes_step s he
    exact hchanges.told hs fun hold => h failure hold

/-! ### Some own step is enabled -/

theorem endTask_ne {task : RunTask} (h : s.gather.live task = true) (connection : Connection)
    (o : TaskEnd RunError) : Run.endTask { s with connection } task o ≠ s := by
  intro heq
  have hout : (s.gather.endChild task o).outcome task = s.gather.outcome task :=
    congrArg (fun t : Run => t.gather.outcome task) heq
  rw [Gather.outcome_endChild, if_pos ⟨h, rfl⟩, Gather.outcome_of_live h] at hout
  cases hout

/-- The ping loop goes on when its ping does. -/
theorem afterPing_ne {j : Nat} (hlive : s.gather.live .ping = true) (hloop : s.pingLoop = some j)
    {ce : ConnectionEvent} (hmoves : (s.connection.step ce).pc? j ≠ s.connection.pc? j) :
    (s.act ce).afterPing j ≠ s := by
  intro heq
  rcases afterPing_cases (s.act ce) j with ⟨hs, -⟩ | ⟨outcome, -, -, hs⟩ | ⟨hs, -⟩
  · rw [hs] at heq
    have hnone := congrArg Run.pingLoop heq
    rw [hloop] at hnone
    cases hnone
  · rw [hs] at heq
    exact endTask_ne hlive (s.connection.step ce) _ heq
  · rw [hs] at heq
    exact hmoves (congrArg (fun t : Run => t.connection.pc? j) heq)

/-- A ping loop that has not ended has a step to take. -/
theorem loop_enabled (h : s.Pinging) (hlive : s.gather.live .ping = true) :
    ∃ e, isOwn e = true ∧ s.step e ≠ s := by
  cases hasked : s.gather.asked .ping with
  | true =>
    have hstops : s.stops .ping = true := by rw [stops, hlive, hasked]; rfl
    refine ⟨.cancelPing, rfl, ?_⟩
    show s.cancelPing ≠ s
    rw [cancelPing, if_pos hstops]
    split
    · exact endTask_ne hlive s.connection _
    · exact endTask_ne hlive _ _
  | false =>
    have hruns : s.runs .ping = true := by rw [runs, hlive, hasked]; rfl
    cases hloop : s.pingLoop with
    | none =>
      refine ⟨.sleepOver, rfl, fun heq => ?_⟩
      have hs : s.sleepOver = s := heq
      rw [sleepOver, if_pos ⟨hruns, by rw [hloop]; rfl⟩] at hs
      have hnone := congrArg Run.pingLoop hs
      rw [hloop] at hnone
      cases hnone
    | some j =>
      rcases h j hloop (Gather.outcome_of_live hlive) with hpc | hpc
      · refine ⟨.resumePing true, rfl, ?_⟩
        show s.resumePing true ≠ s
        rw [resumePing, hloop]
        dsimp only
        rw [if_pos hruns]
        refine afterPing_ne hlive hloop ?_
        rw [hpc]
        exact Connection.resumePing_moves hpc true
      · refine ⟨.timeoutPing, rfl, ?_⟩
        show s.timeoutPing ≠ s
        rw [timeoutPing, hloop]
        dsimp only
        rw [if_pos hruns]
        refine afterPing_ne hlive hloop ?_
        rw [hpc]
        exact Connection.timeoutPing_moves hpc

theorem resume_ne (h : s.gather.resume.left < s.gather.left) : s.step .resume ≠ s := by
  intro heq
  have hg : s.resume.gather = s.gather := congrArg Run.gather heq
  rw [gather_resume] at hg
  rw [hg] at h
  exact lt_irrefl _ h

/-- As long as `run()` has not ended, it or one of its tasks has a step to take. -/
theorem own_enabled (hinv : s.Inv) (h : s.Pinging) (ht : s.Told)
    (hended : s.gather.hasEnded = false) (hskipped : s.gather.stage ≠ .skipped) :
    ∃ e, isOwn e = true ∧ s.step e ≠ s := by
  cases hs : s.gather.stage with
  | created =>
    refine ⟨.start, rfl, fun heq => ?_⟩
    have hstage : s.gather.start.stage = s.gather.stage :=
      congrArg (fun t : Run => t.gather.stage) heq
    rw [Gather.start, hs] at hstage
    dsimp only at hstage
    split at hstage
    · cases hstage
    · cases hstage
  | gathering =>
    cases hping : s.gather.outcome .ping with
    | none => exact loop_enabled h (Gather.live_of_gathering hs hping)
    | some o =>
      have hne : o ≠ .returned := fun ho => hinv.goesOn (by rw [hping, ho])
      rcases hinv.gather.hears hs hping hne with hlt | hlt
      · refine ⟨.notice .ping, rfl, fun heq => ?_⟩
        have hg : s.gather.notice .ping = s.gather := congrArg Run.gather heq
        rw [hg] at hlt
        exact lt_irrefl _ hlt
      · exact ⟨.resume, rfl, resume_ne hlt⟩
  | cleaning failure =>
    cases hping : s.gather.outcome .ping with
    | none => exact loop_enabled h (Gather.live_of_cleaning hs hping)
    | some o =>
      cases hread : s.gather.outcome .read with
      | none =>
        have hlive := Gather.live_of_cleaning hs hread
        have hstops : s.stops .read = true := by rw [stops, hlive, ht failure hs]; rfl
        refine ⟨.cancelRead, rfl, ?_⟩
        show s.cancelRead ≠ s
        rw [cancelRead, if_pos hstops]
        exact endTask_ne hlive s.connection _
      | some o' =>
        refine ⟨.resume, rfl, resume_ne (Gather.left_resume_of_ended hs fun task => ?_)⟩
        cases task with
        | read => rw [hread]; rfl
        | ping => rw [hping]; rfl
  | ended o =>
    rw [Gather.hasEnded, hs] at hended
    cases hended
  | skipped => exact absurd hs hskipped

/-! ### Runs -/

/-- No PINGRESP comes, and an own step is one that is enabled. -/
def Unanswered (s : Run) (e : RunEvent) : Prop :=
  e ≠ .receive .pingresp ∧ (isOwn e = true → s.step e ≠ s)

/-- What holds in every run of a connection. -/
structure Keeps (s : Run) : Prop where
  inv : s.Inv
  pinging : s.Pinging
  told : s.Told

theorem Keeps.step (h : s.Keeps) (e : RunEvent) : (s.step e).Keeps :=
  ⟨h.inv.step e, pinging_step h.inv h.pinging e, h.told.step e⟩

theorem keeps_fresh (version : Version) (maxPublishQos : QoS) (strippedPrefixes : List String) :
    (fresh version maxPublishQos strippedPrefixes).Keeps where
  inv := inv_fresh version maxPublishQos strippedPrefixes
  pinging := by
    intro j hj
    cases hj
  told := by
    intro failure hs
    cases hs

theorem keeps_of_reach {version : Version} {maxPublishQos : QoS} {strippedPrefixes : List String}
    {ok : Run → RunEvent → Prop}
    (h : Reach step ok (fresh version maxPublishQos strippedPrefixes) s) : s.Keeps :=
  Reach.invariant (I := Run.Keeps) h (keeps_fresh version maxPublishQos strippedPrefixes)
    fun _ e hs _ => hs.step e

/-- The own steps of a run without a PINGRESP are paid for. -/
theorem own_steps_le (h : s.Keeps) {es : List RunEvent} (hes : Meets step Unanswered s es) :
    (es.foldl step s).Keeps ∧ es.countP isOwn + (es.foldl step s).remaining ≤ s.remaining := by
  induction es generalizing s with
  | nil => exact ⟨h, Nat.le_of_eq (Nat.zero_add _)⟩
  | cons e es ih =>
    obtain ⟨⟨hpingresp, hown⟩, hrest⟩ := hes
    obtain ⟨hkeeps, hle⟩ := ih (h.step e) hrest
    refine ⟨hkeeps, ?_⟩
    rw [List.foldl_cons, List.countP_cons]
    obtain ⟨-, hstep, hadvance⟩ := advances_step h.inv h.pinging hpingresp
    split
    · next he =>
      have hlt := (hadvance he).resolve_left (hown he)
      omega
    · omega

/-- **A broker that does not answer.** From any state of any run on, as long as no PINGRESP
    comes, whatever other packets the broker sends and whatever callers do, `run()` and its two
    tasks take at most ten steps, and until it has ended one of them has a step to take: the end
    of a sleep, a write or a timeout, a CancelledError, a done callback. -/
theorem silence_ends_run (version : Version) (maxPublishQos : QoS) (strippedPrefixes : List String)
    (s : Run) (h : Reach step anyStep (fresh version maxPublishQos strippedPrefixes) s)
    (es : List RunEvent) (hes : Meets step Unanswered s es) :
    es.countP isOwn ≤ 10 ∧
      ((∃ o, (es.foldl step s).gather.stage = .ended o) ∨
        (es.foldl step s).gather.stage = .skipped ∨
        ∃ e, isOwn e = true ∧ (es.foldl step s).Unanswered e) := by
  obtain ⟨hkeeps, hle⟩ := own_steps_le (keeps_of_reach h) hes
  refine ⟨?_, ?_⟩
  · have hbound := s.remaining_le
    omega
  · cases hended : (es.foldl step s).gather.hasEnded with
    | true => exact .inl (Gather.hasEnded_iff.1 hended)
    | false =>
      by_cases hskipped : (es.foldl step s).gather.stage = .skipped
      · exact .inr (.inl hskipped)
      · obtain ⟨e, he, hne⟩ := own_enabled hkeeps.inv hkeeps.pinging hkeeps.told hended hskipped
        refine .inr (.inr ⟨e, he, ?_, fun _ => hne⟩)
        rintro rfl
        cases he

theorem ne_of_remaining {e : RunEvent} (h : (s.step e).remaining ≠ s.remaining) : s.step e ≠ s :=
  fun heq => h (congrArg Run.remaining heq)

/-- The first PINGREQ is written and times out. -/
def silentRun : List RunEvent :=
  [.start, .sleepOver, .resumePing true, .timeoutPing, .notice .ping, .resume, .cancelRead, .resume]

theorem silence_ends_run_silentRun :
    silentRun.countP isOwn ≤ 10 ∧
      (silentRun.foldl step (fresh .v5 .exactlyOnce [])).gather.stage =
        .ended (.raised (.ping .timedOut)) := by
  have hmeets : Meets step Unanswered (fresh .v5 .exactlyOnce []) silentRun := by
    refine ⟨⟨nofun, fun _ => ne_of_remaining ?_⟩, ⟨nofun, fun _ => ne_of_remaining ?_⟩,
      ⟨nofun, fun _ => ne_of_remaining ?_⟩, ⟨nofun, fun _ => ne_of_remaining ?_⟩,
      ⟨nofun, fun _ => ne_of_remaining ?_⟩, ⟨nofun, fun _ => ne_of_remaining ?_⟩,
      ⟨nofun, fun _ => ne_of_remaining ?_⟩, ⟨nofun, fun _ => ne_of_remaining ?_⟩, trivial⟩
    all_goals decide +kernel
  exact ⟨(silence_ends_run .v5 .exactlyOnce [] _ Relation.ReflTransGen.refl silentRun hmeets).1,
    by decide +kernel⟩

end Run

end Zmqtt
