/-
  Which `ping()` a PINGRESP completes.

  A PINGRESP carries no identifier: `_handle_pingresp` completes the first waiter of the
  list. Call `j` of `ping` sends the `j`-th PINGREQ, so with a broker that answers in order
  the `k`-th PINGRESP belongs to ping `k`. A cancelled ping leaves its waiter in the list and
  keeps the two in step; a timeout removes the waiter, and the late PINGRESP then goes to
  the next one (`late_pingresp_taken`).

  `Aligned` is the invariant of runs without such a late PINGRESP: the list holds the pings
  without an answer, in order (`unanswered`).
-/
import Zmqtt.Session.Attribution
import Zmqtt.Session.DeadConnection

namespace Zmqtt

namespace Protocol

/-- No step brings a read loop back that has ended. -/
theorem stopped_of_reach {p p' : Protocol} (h : Reach Protocol.step anyStep p p')
    (hp : p.readLoop = .stopped) : p'.readLoop = .stopped := by
  refine Reach.invariant (I := fun q : Protocol => q.readLoop = .stopped) h hp ?_
  intro q e hq _
  cases hloc : e.isLocal with
  | true => exact readLoop_step_stopped hq hloc
  | false =>
    cases e with
    | receive packet =>
      show (q.receive packet).readLoop = .stopped
      rw [receive, hq]
      exact hq
    | _ => cases hloc

end Protocol

namespace Connection

variable {s : Connection} {j k : Nat}

/-! ## The state of one ping -/

def pc? (s : Connection) (j : Nat) : Option PingPc := s.pings[j]?.map PingCall.pc

def future? (s : Connection) (j : Nat) : Option PingFuture := s.pings[j]?.map PingCall.future

theorem pc?_congr {s' : Connection} (h : s'.pings = s.pings) (j : Nat) : s'.pc? j = s.pc? j := by
  rw [pc?, pc?, h]

theorem future?_congr {s' : Connection} (h : s'.pings = s.pings) (j : Nat) :
    s'.future? j = s.future? j := by
  rw [future?, future?, h]

/-- Ping `j` raised `MQTTTimeoutError`, and left `_ping_waiters`. -/
def TimedOut (s : Connection) (j : Nat) : Prop := s.pc? j = some (.finished .timedOut)

instance (s : Connection) (j : Nat) : Decidable (s.TimedOut j) :=
  inferInstanceAs (Decidable (_ = _))

/-- The pings from number `k` on that did not time out. -/
def unanswered (s : Connection) (k : Nat) : List Nat :=
  (List.range' k (s.pings.length - k)).filter fun j => ¬ s.TimedOut j

theorem unanswered_succ (hk : k < s.pings.length) :
    s.unanswered k = if s.TimedOut k then s.unanswered (k + 1) else k :: s.unanswered (k + 1) := by
  rw [unanswered, show s.pings.length - k = s.pings.length - (k + 1) + 1 by omega,
    List.range'_succ, List.filter_cons]
  by_cases h : s.TimedOut k
  · simp [h, unanswered]
  · simp [h, unanswered]

theorem unanswered_congr {s' : Connection} (hlen : s'.pings.length = s.pings.length)
    (hpc : ∀ j, s'.pc? j = s.pc? j) (k : Nat) : s'.unanswered k = s.unanswered k := by
  rw [unanswered, unanswered, hlen]
  refine List.filter_congr fun j _ => ?_
  refine decide_eq_decide.2 (not_congr ?_)
  show s'.pc? j = _ ↔ s.pc? j = _
  rw [hpc]

/-! ## What a step of a ping does to its record -/

/-- Ping `j` goes on, or ends. -/
def setPc (s : Connection) (j : Nat) (pc : PingPc) : Connection :=
  { s with pings := s.pings.modify j fun ping => { ping with pc } }

theorem length_setPc (s : Connection) (j : Nat) (pc : PingPc) :
    (s.setPc j pc).pings.length = s.pings.length := List.length_modify ..

theorem pc?_setPc (s : Connection) (j : Nat) (pc : PingPc) (k : Nat) :
    (s.setPc j pc).pc? k = if j = k then (s.pc? k).map fun _ => pc else s.pc? k := by
  rw [pc?, setPc, List.getElem?_modify, pc?]
  cases s.pings[k]? with
  | none => simp
  | some ping =>
    by_cases hjk : j = k
    · simp [hjk]
    · simp [hjk]

theorem future?_setPc (s : Connection) (j : Nat) (pc : PingPc) (k : Nat) :
    (s.setPc j pc).future? k = s.future? k := by
  rw [future?, setPc, List.getElem?_modify, future?]
  cases s.pings[k]? with
  | none => rfl
  | some ping =>
    by_cases hjk : j = k
    · simp [hjk]
    · simp [hjk]

theorem pc?_setPing (s : Connection) (j : Nat) (future : PingFuture) (k : Nat) :
    (s.setPing j future).pc? k = s.pc? k := by
  rw [pc?, setPing, List.getElem?_modify, pc?]
  cases s.pings[k]? with
  | none => rfl
  | some ping =>
    by_cases hdone : ping.future = .pending
    · by_cases hjk : j = k
      · simp [hjk, hdone]
      · simp [hjk]
    · simp [hdone]

theorem future?_setPing (s : Connection) (j : Nat) (future : PingFuture) (k : Nat) :
    (s.setPing j future).future? k =
      if j = k then (s.future? k).map fun f => if f = .pending then future else f
      else s.future? k := by
  rw [future?, setPing, List.getElem?_modify, future?]
  cases s.pings[k]? with
  | none => simp
  | some ping =>
    by_cases hjk : j = k
    · by_cases hdone : ping.future = .pending
      · simp [hjk, hdone]
      · simp [hjk, hdone]
    · simp [hjk]

theorem lt_of_pc? {pc : PingPc} (h : s.pc? j = some pc) : j < s.pings.length := by
  obtain ⟨ping, hping, -⟩ := Option.map_eq_some_iff.1 h
  exact (List.getElem?_eq_some_iff.1 hping).1

theorem pc?_ping_of_lt (hj : j < s.pings.length) : s.ping.pc? j = s.pc? j :=
  congrArg _ (List.getElem?_append_left hj)

theorem future?_ping_of_lt (hj : j < s.pings.length) : s.ping.future? j = s.future? j :=
  congrArg _ (List.getElem?_append_left hj)

/-- A ping that just began is the last. -/
theorem pc?_ping {pc : PingPc} (h : s.ping.pc? j = some pc) :
    s.pc? j = some pc ∨ j = s.pings.length ∧ ({} : PingCall).pc = pc := by
  obtain ⟨ping, hping, hpc⟩ := Option.map_eq_some_iff.1 h
  rcases getElem?_concat_cases hping with hold | ⟨hj, rfl⟩
  · refine Or.inl ?_
    rw [pc?, hold, ← hpc]
    rfl
  · exact Or.inr ⟨hj, hpc⟩

theorem future?_ping {future : PingFuture} (h : s.ping.future? j = some future) :
    s.future? j = some future ∨ j = s.pings.length ∧ ({} : PingCall).future = future := by
  obtain ⟨ping, hping, hf⟩ := Option.map_eq_some_iff.1 h
  rcases getElem?_concat_cases hping with hold | ⟨hj, rfl⟩
  · refine Or.inl ?_
    rw [future?, hold, ← hf]
    rfl
  · exact Or.inr ⟨hj, hf⟩

/-- A future that has its result keeps it. -/
theorem result_setPing {future : PingFuture} (h : s.future? k = some .result) :
    (s.setPing j future).future? k = some .result := by
  rw [future?_setPing]
  split
  · rw [h]
    rfl
  · exact h

/-- What `resumePing` does: nothing, or the ping goes on, and returns only with a result. -/
theorem resumePing_cases (s : Connection) (j : Nat) (written : Bool) :
    s.resumePing j written = s ∨
      ∃ pc, s.resumePing j written = s.setPc j pc ∧ ¬ s.TimedOut j ∧
        pc ≠ .finished .timedOut ∧ (pc = .finished .returned → s.future? j = some .result) := by
  unfold resumePing
  split
  · exact .inl rfl
  · next ping hj =>
    have hnot : ∀ {pc}, ping.pc = pc → (∀ outcome, pc ≠ .finished outcome) → ¬ s.TimedOut j := by
      rintro pc rfl hpc htimed
      rw [TimedOut, pc?, hj] at htimed
      exact hpc _ (Option.some.inj htimed)
    have hresult : ping.future = .result → s.future? j = some .result := by
      intro hf
      rw [future?, hj]
      exact congrArg some hf
    split
    · exact .inl rfl
    · next hpc _ =>
      split
      · exact .inr ⟨.waiting, rfl, hnot hpc (fun _ h => by cases h), by decide, fun h => by cases h⟩
      · exact .inr ⟨_, rfl, hnot hpc (fun _ h => by cases h), by decide, fun h => by cases h⟩
    · exact .inl rfl
    · next hpc hf =>
      refine .inr ⟨_, rfl, hnot hpc (fun _ h => by cases h), ?_, fun _ => hresult hf⟩
      split
      · decide
      · decide
    · next hpc hf =>
      refine .inr ⟨_, rfl, hnot hpc (fun _ h => by cases h), ?_, ?_⟩
      · split
        · decide
        · decide
      · split
        · exact fun h => by cases h
        · exact fun h => by cases h
    · next hpc hf =>
      exact .inr ⟨_, rfl, hnot hpc (fun _ h => by cases h), by decide, fun _ => hresult hf⟩
    · next hpc hf =>
      exact .inr ⟨_, rfl, hnot hpc (fun _ h => by cases h), by decide, fun h => by cases h⟩

theorem cancelPing_cases (s : Connection) (j : Nat) :
    s.cancelPing j = s ∨ s.cancelPing j = s.setPc j (.finished .cancelled) ∧ ¬ s.TimedOut j := by
  unfold cancelPing
  split
  · exact .inl rfl
  · exact .inl rfl
  · next ping hne hj =>
    refine .inr ⟨rfl, fun htimed => ?_⟩
    rw [TimedOut, pc?, hj] at htimed
    exact hne ping.future .timedOut (by rw [← Option.some.inj htimed])

/-- What the timeout does: nothing, or the ping ends, and leaves the list if it is there. -/
theorem timeoutPing_cases (s : Connection) (j : Nat) :
    s.timeoutPing j = s ∨ s.pc? j = some .waiting ∧
      (j ∉ s.pingWaiters ∧ s.timeoutPing j = s.setPc j (.finished .notWaiting) ∨
        j ∈ s.pingWaiters ∧ s.timeoutPing j =
          { s with pingWaiters := s.pingWaiters.erase j }.setPc j (.finished .timedOut)) := by
  unfold timeoutPing
  split
  · next hj =>
    refine .inr ⟨by rw [pc?, hj]; rfl, ?_⟩
    by_cases hin : j ∈ s.pingWaiters
    · rw [if_pos hin]
      exact .inr ⟨hin, rfl⟩
    · rw [if_neg hin, List.erase_of_not_mem hin]
      exact .inl ⟨hin, rfl⟩
  · exact .inl rfl

/-! ## What a step of the connection does to the waiters -/

/-- A step in which the read loop takes a PINGRESP. -/
def takesPingresp (s : Connection) : ConnectionEvent → Bool
  | .call (.background (.receive .pingresp)) => s.protocol.readLoop = .reading
  | _ => false

/-- The loop of `_cancel_pending` over the waiters gives no ping a result. -/
theorem foldl_setPing_frame (waiters : List Nat) (s : Connection) :
    let s' := waiters.foldl (fun (s : Connection) j => s.setPing j .disconnected) s
    s'.pings.length = s.pings.length ∧ (∀ k, s'.pc? k = s.pc? k) ∧
      ∀ k, s'.future? k = some .result ↔ s.future? k = some .result := by
  induction waiters generalizing s with
  | nil => exact ⟨rfl, fun _ => rfl, fun _ => Iff.rfl⟩
  | cons j waiters ih =>
    obtain ⟨hlen, hpc, hfuture⟩ := ih (s.setPing j .disconnected)
    refine ⟨hlen.trans (List.length_modify ..), fun k => (hpc k).trans (pc?_setPing ..), fun k =>
      (hfuture k).trans ⟨fun h => ?_, result_setPing⟩⟩
    rw [future?_setPing] at h
    split at h
    · obtain ⟨f, hf, hset⟩ := Option.map_eq_some_iff.1 h
      split at hset
      · cases hset
      · rw [hf, hset]
    · exact h

/-- A step of the calls leaves the pings alone, or is a PINGRESP that the read loop takes, or
    ends the read loop without a result for any ping. -/
theorem step_call_pings (s : Connection) (e : InterestEvent) :
    (s.takesPingresp (.call e) = false ∧ (s.step (.call e)).pings = s.pings ∧
      (s.step (.call e)).pingWaiters = s.pingWaiters) ∨
    (s.takesPingresp (.call e) = true ∧ (s.step (.call e)).pings = s.handlePingresp.pings ∧
      (s.step (.call e)).pingWaiters = s.handlePingresp.pingWaiters) ∨
    (s.takesPingresp (.call e) = false ∧ (s.step (.call e)).protocol.readLoop = .stopped ∧
      (s.step (.call e)).pings.length = s.pings.length ∧
      (∀ k, (s.step (.call e)).pc? k = s.pc? k) ∧
      ∀ k, (s.step (.call e)).future? k = some .result ↔ s.future? k = some .result) := by
  by_cases hpingresp : e = .background (.receive .pingresp)
  · subst hpingresp
    have hstep : s.step (.call (.background (.receive .pingresp))) =
        if s.protocol.readLoop = .reading then
          { s with interests := s.interests.step (.background (.receive .pingresp)) }.handlePingresp
        else { s with interests := s.interests.step (.background (.receive .pingresp)) } := rfl
    rw [hstep]
    by_cases hreading : s.protocol.readLoop = .reading
    · rw [if_pos hreading]
      refine .inr (.inl ⟨decide_eq_true hreading, ?_⟩)
      unfold handlePingresp
      dsimp only
      split
      · exact ⟨rfl, rfl⟩
      · exact ⟨rfl, rfl⟩
    · rw [if_neg hreading]
      exact .inl ⟨decide_eq_false hreading, rfl, rfl⟩
  by_cases hexit : e = .background .runExit
  · subst hexit
    refine .inr (.inr ⟨rfl, ?_, foldl_setPing_frame s.pingWaiters _⟩)
    have hprotocol := congrArg Interests.protocol (interests_step_call s (.background .runExit))
    exact (congrArg Protocol.readLoop hprotocol).trans (Protocol.readLoop_runExit _)
  · refine .inl ⟨?_, ?_⟩
    · unfold takesPingresp
      split
      · next heq => exact absurd (ConnectionEvent.call.inj heq) hpingresp
      · rfl
    · unfold Connection.step
      dsimp only
      split
      · exact absurd rfl hpingresp
      · exact absurd rfl hexit
      · exact ⟨rfl, rfl⟩

end Connection

/-! ## Runs -/

/-- A connection, and the number of PINGRESPs that its read loop has taken. -/
structure PingRun where
  connection : Connection
  answers : Nat := 0

namespace PingRun

def step (s : PingRun) (e : ConnectionEvent) : PingRun where
  connection := s.connection.step e
  answers := if s.connection.takesPingresp e then s.answers + 1 else s.answers

/-- The broker answers only PINGREQs that were sent. -/
def Solicited (s : PingRun) (e : ConnectionEvent) : Prop :=
  s.connection.takesPingresp e = true → s.answers < s.connection.pings.length

/-- A PINGRESP finds no waiter, or the ping that it answers did not time out. -/
def InTime (s : PingRun) (e : ConnectionEvent) : Prop :=
  s.connection.takesPingresp e = true →
    s.connection.pingWaiters = [] ∨ ¬ s.connection.TimedOut s.answers

instance (s : PingRun) (e : ConnectionEvent) : Decidable (s.Solicited e) :=
  inferInstanceAs (Decidable (_ → _))

instance (s : PingRun) (e : ConnectionEvent) : Decidable (s.InTime e) :=
  inferInstanceAs (Decidable (_ → _))

/-- The step gives ping `j` its result. -/
def Completes (s : PingRun) (e : ConnectionEvent) (j : Nat) : Prop :=
  s.connection.future? j ≠ some .result ∧ (s.connection.step e).future? j = some .result

/-- While the read loop runs, the list holds the pings without an answer, in order; only
    pings that were answered have a result, and only these return. -/
structure Aligned (s : PingRun) : Prop where
  answers : s.answers ≤ s.connection.pings.length
  waiters : s.connection.protocol.readLoop ≠ .stopped →
    s.connection.pingWaiters = s.connection.unanswered s.answers
  results : ∀ j, s.connection.future? j = some .result → j < s.answers
  returned : ∀ j, s.connection.pc? j = some (.finished .returned) →
    s.connection.future? j = some .result

variable {s : PingRun}

/-- Ping `j` goes on, without a timeout. -/
theorem Aligned.setPc (h : s.Aligned) {j : Nat} {pc : PingPc}
    (hold : ¬ s.connection.TimedOut j) (hpc : pc ≠ .finished .timedOut)
    (hresult : pc = .finished .returned → s.connection.future? j = some .result) :
    Aligned { s with connection := s.connection.setPc j pc } := by
  have hlen := s.connection.length_setPc j pc
  refine ⟨h.answers.trans_eq hlen.symm, fun hrun => ?_, fun k hk => ?_, fun k hk => ?_⟩
  · refine (h.waiters hrun).trans ?_
    show _ = (s.connection.setPc j pc).unanswered s.answers
    -- neither the old nor the new state of ping `j` is a timeout
    unfold Connection.unanswered
    rw [hlen]
    refine List.filter_congr fun k _ => decide_eq_decide.2 (not_congr ?_)
    show s.connection.pc? k = _ ↔ (s.connection.setPc j pc).pc? k = _
    rw [Connection.pc?_setPc]
    split
    · next hjk =>
      subst hjk
      refine iff_of_false hold fun he => ?_
      obtain ⟨_, -, hset⟩ := Option.map_eq_some_iff.1 he
      exact hpc hset
    · rfl
  · exact h.results k ((s.connection.future?_setPc j pc k).symm.trans hk)
  · refine (s.connection.future?_setPc j pc k).trans ?_
    have hk' : (s.connection.setPc j pc).pc? k = some (.finished .returned) := hk
    rw [Connection.pc?_setPc] at hk'
    split at hk'
    · next hjk =>
      subst hjk
      obtain ⟨_, -, hset⟩ := Option.map_eq_some_iff.1 hk'
      exact hresult hset
    · exact h.returned k hk'

/-- Ping `j` times out, and leaves the list. -/
theorem Aligned.timeout (h : s.Aligned) {j : Nat}
    (hwaiting : s.connection.pc? j = some .waiting) :
    Aligned { s with connection := { s.connection with
      pingWaiters := s.connection.pingWaiters.erase j }.setPc j (.finished .timedOut) } := by
  have hlen := s.connection.length_setPc j (.finished .timedOut)
  refine ⟨h.answers.trans_eq hlen.symm, fun hrun => ?_, fun k hk => ?_, fun k hk => ?_⟩
  · show s.connection.pingWaiters.erase j =
      (s.connection.setPc j (.finished .timedOut)).unanswered s.answers
    rw [h.waiters hrun, Connection.unanswered, Connection.unanswered, hlen,
      (List.Nodup.filter _ List.nodup_range').erase_eq_filter, List.filter_filter]
    refine List.filter_congr fun k _ => ?_
    rw [bne, Bool.beq_eq_decide_eq, ← decide_not, ← Bool.decide_and]
    refine decide_eq_decide.2 ?_
    show k ≠ j ∧ ¬ s.connection.pc? k = _ ↔
      ¬ (s.connection.setPc j (.finished .timedOut)).pc? k = some (.finished .timedOut)
    rw [Connection.pc?_setPc]
    by_cases hjk : j = k
    · subst hjk
      simp [hwaiting]
    · rw [if_neg hjk]
      exact ⟨fun hk => hk.2, fun hk => ⟨fun he => hjk he.symm, hk⟩⟩
  · exact h.results k ((s.connection.future?_setPc j _ k).symm.trans hk)
  · refine (s.connection.future?_setPc j (.finished .timedOut) k).trans ?_
    have hk' : (s.connection.setPc j (.finished .timedOut)).pc? k = some (.finished .returned) := hk
    rw [Connection.pc?_setPc] at hk'
    split at hk'
    · obtain ⟨_, -, hset⟩ := Option.map_eq_some_iff.1 hk'
      cases hset
    · exact h.returned k hk'

/-- A new ping has the next number. -/
theorem Aligned.ping (h : s.Aligned) : Aligned { s with connection := s.connection.ping } := by
  have hlen : s.connection.ping.pings.length = s.connection.pings.length + 1 :=
    List.length_append
  refine ⟨h.answers.trans (by rw [hlen]; omega), fun hrun => ?_, fun k hk => ?_, fun k hk => ?_⟩
  · show s.connection.pingWaiters ++ [s.connection.pings.length] =
      s.connection.ping.unanswered s.answers
    have hle := h.answers
    rw [h.waiters hrun, Connection.unanswered, Connection.unanswered, hlen,
      show s.connection.pings.length + 1 - s.answers =
        s.connection.pings.length - s.answers + 1 by omega,
      List.range'_1_concat, List.filter_append,
      show s.answers + (s.connection.pings.length - s.answers) = s.connection.pings.length by omega]
    have hnew : ¬ s.connection.ping.TimedOut s.connection.pings.length := by
      intro htimed
      rcases s.connection.pc?_ping htimed with hold | ⟨-, hpc⟩
      · exact absurd (s.connection.lt_of_pc? hold) (Nat.lt_irrefl _)
      · cases hpc
    congr 1
    · refine List.filter_congr fun k hk => decide_eq_decide.2 (not_congr ?_)
      have hlt := (List.mem_range'_1.1 hk).2
      show s.connection.pc? k = _ ↔ s.connection.ping.pc? k = _
      rw [s.connection.pc?_ping_of_lt (by omega)]
    · simp [hnew]
  · rcases s.connection.future?_ping hk with hold | ⟨-, hf⟩
    · exact h.results k hold
    · cases hf
  · rcases s.connection.pc?_ping hk with hold | ⟨-, hpc⟩
    · show s.connection.ping.future? k = some .result
      rw [s.connection.future?_ping_of_lt (s.connection.lt_of_pc? hold)]
      exact h.returned k hold
    · cases hpc

/-- A PINGRESP in time finds no waiter, or the ping that it answers first in the list. -/
theorem Aligned.head (h : s.Aligned) (hrun : s.connection.protocol.readLoop ≠ .stopped)
    (hsent : s.answers < s.connection.pings.length)
    (hintime : s.connection.pingWaiters = [] ∨ ¬ s.connection.TimedOut s.answers) :
    s.connection.pingWaiters = [] ∧ s.connection.unanswered (s.answers + 1) = [] ∨
      s.connection.pingWaiters = s.answers :: s.connection.unanswered (s.answers + 1) := by
  have hwaiters := h.waiters hrun
  rw [Connection.unanswered_succ hsent] at hwaiters
  by_cases htimed : s.connection.TimedOut s.answers
  · rw [if_pos htimed] at hwaiters
    obtain hnil | hnot := hintime
    · exact .inl ⟨hnil, hwaiters.symm.trans hnil⟩
    · exact absurd htimed hnot
  · rw [if_neg htimed] at hwaiters
    exact .inr hwaiters

/-- A step that gives no ping a result and changes no record. -/
theorem Aligned.frame (h : s.Aligned) {c : Connection}
    (hlen : c.pings.length = s.connection.pings.length)
    (hpc : ∀ j, c.pc? j = s.connection.pc? j)
    (hfuture : ∀ j, c.future? j = some .result ↔ s.connection.future? j = some .result)
    (hwaiters : c.protocol.readLoop ≠ .stopped →
      s.connection.protocol.readLoop ≠ .stopped ∧ c.pingWaiters = s.connection.pingWaiters) :
    Aligned { s with connection := c } := by
  refine ⟨h.answers.trans_eq hlen.symm, fun hrun => ?_, fun j hj => h.results j ((hfuture j).1 hj),
    fun j hj => (hfuture j).2 (h.returned j ((hpc j).symm.trans hj))⟩
  obtain ⟨hrun', heq⟩ := hwaiters hrun
  exact heq.trans ((h.waiters hrun').trans (Connection.unanswered_congr hlen hpc _).symm)

/-- A PINGRESP that finds no waiter only counts. -/
theorem Aligned.answerNone (h : s.Aligned) {c : Connection} (hlt : s.answers < s.connection.pings.length)
    (hrest : s.connection.unanswered (s.answers + 1) = []) (hpings : c.pings = s.connection.pings)
    (hwaiters : c.pingWaiters = []) : Aligned { connection := c, answers := s.answers + 1 } := by
  have hlen := congrArg List.length hpings
  have hpc := Connection.pc?_congr hpings
  have hfuture := Connection.future?_congr hpings
  refine ⟨hlt.trans_eq hlen.symm, fun _ => ?_,
    fun j hj => Nat.lt_succ_of_lt (h.results j ((hfuture j).symm.trans hj)),
    fun j hj => (hfuture j).trans (h.returned j ((hpc j).symm.trans hj))⟩
  show c.pingWaiters = _
  rw [hwaiters, Connection.unanswered_congr hlen hpc, hrest]

/-- A PINGRESP completes the ping that it answers, which leaves the list. -/
theorem Aligned.answerFirst (h : s.Aligned) {c : Connection}
    (hlt : s.answers < s.connection.pings.length)
    (hpings : c.pings = (s.connection.setPing s.answers .result).pings)
    (hwaiters : c.pingWaiters = s.connection.unanswered (s.answers + 1)) :
    Aligned { connection := c, answers := s.answers + 1 } ∧
      ∀ j, j ≠ s.answers → c.future? j = s.connection.future? j := by
  have hlen : c.pings.length = s.connection.pings.length :=
    (congrArg List.length hpings).trans (List.length_modify ..)
  have hpc : ∀ j, c.pc? j = s.connection.pc? j := fun j =>
    (Connection.pc?_congr hpings j).trans (s.connection.pc?_setPing s.answers .result j)
  have hfuture := Connection.future?_congr hpings
  have hother : ∀ j, j ≠ s.answers → c.future? j = s.connection.future? j := by
    intro j hne
    rw [hfuture, Connection.future?_setPing, if_neg (Ne.symm hne)]
  refine ⟨⟨hlt.trans_eq hlen.symm, fun _ => ?_, fun j hj => ?_, fun j hj => ?_⟩, hother⟩
  · show c.pingWaiters = _
    rw [hwaiters, Connection.unanswered_congr hlen hpc]
  · by_cases hne : j = s.answers
    · subst hne
      exact Nat.lt_succ_self _
    · exact Nat.lt_succ_of_lt (h.results j ((hother j hne).symm.trans hj))
  · refine (hfuture j).trans ?_
    exact Connection.result_setPing (h.returned j ((hpc j).symm.trans hj))

/-- A step of the calls; only a PINGRESP gives a result, to the ping that it answers. -/
theorem Aligned.call (h : s.Aligned) (e : InterestEvent) (hsent : s.Solicited (.call e))
    (hintime : s.InTime (.call e)) :
    (s.step (.call e)).Aligned ∧ ∀ j, s.Completes (.call e) j →
      s.connection.takesPingresp (.call e) = true ∧ j = s.answers := by
  have hstays : (s.connection.step (.call e)).protocol.readLoop ≠ .stopped →
      s.connection.protocol.readLoop ≠ .stopped := by
    intro hrun hstopped
    have hprotocol := congrArg Interests.protocol (Connection.interests_step_call s.connection e)
    refine hrun ((congrArg Protocol.readLoop hprotocol).trans ?_)
    exact Protocol.stopped_of_reach (Interests.reach_step _ e) hstopped
  obtain ⟨htakes, hpings, hwaiters⟩ | ⟨htakes, hpings, hwaiters⟩ |
      ⟨htakes, hstopped, hlen, hpc, hfuture⟩ := s.connection.step_call_pings e
  · have hfuture := Connection.future?_congr hpings
    refine ⟨?_, fun j hj => absurd ((hfuture j).symm.trans hj.2) hj.1⟩
    rw [PingRun.step, htakes]
    exact h.frame (congrArg List.length hpings) (Connection.pc?_congr hpings)
      (fun j => by rw [hfuture j]) fun hrun => ⟨hstays hrun, hwaiters⟩
  · have hreading : s.connection.protocol.readLoop ≠ .stopped := by
      unfold Connection.takesPingresp at htakes
      split at htakes
      · rw [of_decide_eq_true htakes]
        decide
      · cases htakes
    have hlt := hsent htakes
    rw [PingRun.step, if_pos htakes]
    obtain ⟨hnil, hrest⟩ | hhead := h.head hreading hlt (hintime htakes)
    · have hsame : s.connection.handlePingresp = s.connection := by
        rw [Connection.handlePingresp, hnil]
      rw [hsame] at hpings hwaiters
      have hfuture := Connection.future?_congr hpings
      exact ⟨h.answerNone hlt hrest hpings (hwaiters.trans hnil),
        fun j hj => absurd ((hfuture j).symm.trans hj.2) hj.1⟩
    · have hsame : s.connection.handlePingresp =
          { s.connection with
            pingWaiters := s.connection.unanswered (s.answers + 1) }.setPing s.answers .result := by
        rw [Connection.handlePingresp, hhead]
      rw [hsame] at hpings hwaiters
      obtain ⟨haligned, hother⟩ := h.answerFirst hlt hpings hwaiters
      refine ⟨haligned, fun j hj => ⟨htakes, ?_⟩⟩
      by_contra hne
      exact hj.1 ((hother j hne).symm.trans hj.2)
  · refine ⟨?_, fun j hj => absurd ((hfuture j).1 hj.2) hj.1⟩
    rw [PingRun.step, htakes]
    exact h.frame hlen hpc hfuture fun hrun => absurd hstopped hrun

/-- A PINGRESP in time gives a result to the ping that it answers, and no other step gives
    one. -/
theorem Aligned.step (h : s.Aligned) {e : ConnectionEvent} (hsent : s.Solicited e)
    (hintime : s.InTime e) :
    (s.step e).Aligned ∧ ∀ j, s.Completes e j →
      s.connection.takesPingresp e = true ∧ j = s.answers := by
  have hpc : ∀ {c : Connection} {j pc}, c = s.connection.setPc j pc →
      ∀ k, c.future? k = s.connection.future? k :=
    fun hc k => hc ▸ s.connection.future?_setPc _ _ k
  cases e with
  | call e => exact h.call e hsent hintime
  | ping =>
    refine ⟨h.ping, fun j hj => ?_⟩
    have hlt := h.ping.results j hj.2
    have hold := s.connection.future?_ping_of_lt (hlt.trans_le h.answers)
    exact absurd (hold.symm.trans hj.2) hj.1
  | resumePing j written =>
    show Aligned { s with connection := s.connection.resumePing j written } ∧ _
    obtain hsame | ⟨pc, hstep, hold, hne, hresult⟩ := s.connection.resumePing_cases j written
    · rw [hsame]
      exact ⟨h, fun k hk => absurd (hsame ▸ hk.2) hk.1⟩
    · rw [hstep]
      exact ⟨h.setPc hold hne hresult, fun k hk => absurd ((hpc hstep k).symm.trans hk.2) hk.1⟩
  | timeoutPing j =>
    show Aligned { s with connection := s.connection.timeoutPing j } ∧ _
    obtain hsame | ⟨hwaiting, ⟨-, hstep⟩ | ⟨-, hstep⟩⟩ := s.connection.timeoutPing_cases j
    · rw [hsame]
      exact ⟨h, fun k hk => absurd (hsame ▸ hk.2) hk.1⟩
    · rw [hstep]
      refine ⟨h.setPc ?_ (by decide) (fun he => by cases he),
        fun k hk => absurd ((hpc hstep k).symm.trans hk.2) hk.1⟩
      rw [Connection.TimedOut, hwaiting]
      decide
    · rw [hstep]
      refine ⟨h.timeout hwaiting, fun k hk => absurd ?_ hk.1⟩
      have hset : (s.connection.timeoutPing j).future? k = s.connection.future? k := by
        rw [hstep]
        exact s.connection.future?_setPc j _ k
      exact hset.symm.trans hk.2
  | cancelPing j =>
    show Aligned { s with connection := s.connection.cancelPing j } ∧ _
    obtain hsame | ⟨hstep, hold⟩ := s.connection.cancelPing_cases j
    · rw [hsame]
      exact ⟨h, fun k hk => absurd (hsame ▸ hk.2) hk.1⟩
    · rw [hstep]
      exact ⟨h.setPc hold (by decide) (fun he => by cases he),
        fun k hk => absurd ((hpc hstep k).symm.trans hk.2) hk.1⟩

/-- A connection right after the handshake, with no PINGRESP taken. -/
def fresh (version : Version) (maxPublishQos : QoS) (strippedPrefixes : List String) : PingRun :=
  { connection := Connection.fresh version maxPublishQos strippedPrefixes }

theorem aligned_fresh (version : Version) (maxPublishQos : QoS) (strippedPrefixes : List String) :
    (fresh version maxPublishQos strippedPrefixes).Aligned :=
  { answers := Nat.le_refl 0
    waiters := fun _ => rfl
    results := fun j hj => by cases hj
    returned := fun j hj => by cases hj }

/-- **PINGRESP attribution.** In every run in which the broker answers the PINGREQs it
    received in order, and each PINGRESP finds no waiter or answers a ping that did not time
    out, the `k`-th PINGRESP completes no ping but the one that sent the `k`-th PINGREQ, and
    every ping that returned has been answered. -/
theorem pingresp_attribution {version : Version} {maxPublishQos : QoS}
    {strippedPrefixes : List String} {s : PingRun}
    (h : Reach PingRun.step (fun s e => s.Solicited e ∧ s.InTime e)
      (fresh version maxPublishQos strippedPrefixes) s) :
    (∀ e, s.Solicited e ∧ s.InTime e → ∀ j, s.Completes e j →
      s.connection.takesPingresp e = true ∧ j = s.answers) ∧
    ∀ j, s.connection.pc? j = some (.finished .returned) → j < s.answers := by
  have haligned : s.Aligned :=
    Reach.invariant h (aligned_fresh _ _ _) fun _ _ hs hok => (hs.step hok.1 hok.2).1
  exact ⟨fun e hok => (haligned.step hok.1 hok.2).2,
    fun j hj => haligned.results j (haligned.returned j hj)⟩

/-- Two pings, the first cancelled; the second PINGRESP completes the second ping. -/
def cancelledFirst : List ConnectionEvent :=
  [.ping, .ping, .resumePing 0 true, .resumePing 1 true, .cancelPing 0,
    .call (.background (.receive .pingresp)), .call (.background (.receive .pingresp)),
    .resumePing 1 true]

theorem pingresp_attribution_cancelledFirst :
    (cancelledFirst.foldl PingRun.step (fresh .v311 .exactlyOnce [])).connection.pc? 1 =
      some (.finished .returned) ∧
    1 < (cancelledFirst.foldl PingRun.step (fresh .v311 .exactlyOnce [])).answers := by
  have hmeets : Meets PingRun.step (fun s e => s.Solicited e ∧ s.InTime e)
      (fresh .v311 .exactlyOnce []) cancelledFirst := by
    refine ⟨⟨?_, ?_⟩, ⟨?_, ?_⟩, ⟨?_, ?_⟩, ⟨?_, ?_⟩, ⟨?_, ?_⟩, ⟨?_, ?_⟩, ⟨?_, ?_⟩, ⟨?_, ?_⟩,
      trivial⟩ <;> decide +kernel
  have hreturned : (cancelledFirst.foldl PingRun.step
      (fresh .v311 .exactlyOnce [])).connection.pc? 1 = some (.finished .returned) := by
    decide +kernel
  exact ⟨hreturned, (pingresp_attribution (Reach.foldl hmeets)).2 1 hreturned⟩

/-- A ping times out, and its PINGRESP comes while the next ping waits. -/
def lateAnswer : List ConnectionEvent :=
  [.ping, .resumePing 0 true, .timeoutPing 0, .ping, .resumePing 1 true]

/-- The PINGRESP of ping 0, the first one, completes ping 1. -/
theorem late_pingresp_taken :
    ¬ ∀ s : PingRun, Reach PingRun.step Solicited (fresh .v311 .exactlyOnce []) s →
      ∀ e, s.Solicited e → ∀ j, s.Completes e j → j = s.answers := by
  intro hall
  have hreach : Reach PingRun.step Solicited (fresh .v311 .exactlyOnce [])
      (lateAnswer.foldl PingRun.step (fresh .v311 .exactlyOnce [])) := by
    refine Reach.foldl ⟨?_, ?_, ?_, ?_, ?_, trivial⟩ <;> decide +kernel
  have hone := hall _ hreach (.call (.background (.receive .pingresp))) (by decide +kernel) 1
    ⟨by decide +kernel, by decide +kernel⟩
  exact absurd hone (by decide +kernel)

end PingRun

end Zmqtt
