/-
  `Subscription.get_message` (`client.py`): a call reads the queue, directly or in a helper
  task beside the failure signal of the client, then drains the replay buffer, and returns the
  message. Messages are numbered in the order in which they are put into the queue.

  A call is suspended in the read of the queue, in `asyncio.wait`, in the drain, or in the
  `gather` of its `finally` block. `asyncio.Queue.get` takes a message only when it completes;
  a helper task whose cancellation was requested takes none.
-/
import Zmqtt.Lib.Machine
import Zmqtt.Lib.Tasks

namespace Zmqtt

/-- How a call ends. -/
inductive GetOutcome where
  | returned (m : Nat)
  | raisedFailure
  | drainFailed
  | cancelled
  deriving Repr, DecidableEq

/-- Where a call is suspended. -/
inductive GetPc where
  | reading
  | waiting
  | draining (m : Nat)
  | finishing (outcome : GetOutcome)
  | ended (outcome : GetOutcome)
  deriving Repr, DecidableEq

/-- A call of `get_message`; `signal` is the failure signal it read, beside which the queue is
    read in `message_task`, and `taken` is the message that the read has given. -/
structure GetCall where
  signal : Option Nat
  pc : GetPc
  taken : Option Nat := none
  deriving Repr, DecidableEq

/-- The queue of a subscription and the calls on it; `count` messages were put. `signals` says
    of each `_subscription_failure` of the client whether it is done; the last is the current. -/
structure SubscriptionReads where
  signals : List Bool := []
  queue : List Nat := []
  count : Nat := 0
  calls : List GetCall := []
  deriving Repr, DecidableEq

inductive ReadEvent where
  | clientEntered
  | failureFires
  | put
  | getMessage
  | readDone (i : Nat)
  | wake (i : Nat)
  | drained (i : Nat) (ok : Bool)
  | gathered (i : Nat)
  | cancel (i : Nat)
  deriving Repr, DecidableEq

namespace GetCall

/-- A call up to its first await. -/
def begin (signals : List Bool) : GetCall :=
  match signals.getLast? with
  | none => { signal := none, pc := .reading }
  | some true => { signal := none, pc := .ended .raisedFailure }
  | some false => { signal := some (signals.length - 1), pc := .waiting }

/-- The read of the queue may still take a message. -/
def isReading (c : GetCall) : Bool :=
  match c.pc with
  | .reading => true
  | .waiting => c.taken.isNone
  | .draining _ | .finishing _ | .ended _ => false

/-- The read gives a message: the call itself goes on to the drain, a helper task is done. -/
def read (c : GetCall) (m : Nat) : GetCall :=
  if c.signal.isSome then { c with taken := some m }
  else { c with taken := some m, pc := .draining m }

/-- The body is left; the `finally` block gathers the helper task, if there is one. -/
def leave (c : GetCall) (outcome : GetOutcome) : GetCall :=
  if c.signal.isSome then { c with pc := .finishing outcome } else { c with pc := .ended outcome }

/-- `failure_signal in done`. -/
def failed (c : GetCall) (signals : List Bool) : Bool :=
  c.signal.any fun k => signals[k]?.getD false

/-- `asyncio.wait` returns. -/
def wake (c : GetCall) (signals : List Bool) : GetCall :=
  match c.pc with
  | .waiting =>
      if c.failed signals then c.leave .raisedFailure
      else
        match c.taken with
        | none => c
        | some m => { c with pc := .draining m }
  | _ => c

/-- `_notify_capacity_available` returns or raises. -/
def drained (c : GetCall) (ok : Bool) : GetCall :=
  match c.pc with
  | .draining m => c.leave (if ok then .returned m else .drainFailed)
  | _ => c

/-- The `gather` returns. -/
def gathered (c : GetCall) : GetCall :=
  match c.pc with
  | .finishing outcome => { c with pc := .ended outcome }
  | _ => c

/-- `CancelledError` is thrown at the await of the call. -/
def cancel (c : GetCall) : GetCall :=
  match c.pc with
  | .reading | .waiting | .draining _ => c.leave .cancelled
  | .finishing _ => { c with pc := .ended .cancelled }
  | .ended _ => c

end GetCall

namespace SubscriptionReads

/-- One call changes. -/
def update (s : SubscriptionReads) (i : Nat) (g : GetCall → GetCall) : SubscriptionReads :=
  match s.calls[i]? with
  | none => s
  | some c => { s with calls := s.calls.set i (g c) }

/-- The read of call `i` takes the first message. -/
def readDone (s : SubscriptionReads) (i : Nat) : SubscriptionReads :=
  match s.calls[i]?, s.queue with
  | some c, m :: queue =>
      if c.isReading then { s with queue, calls := s.calls.set i (c.read m) } else s
  | _, _ => s

def step (s : SubscriptionReads) : ReadEvent → SubscriptionReads
  | .clientEntered => { s with signals := s.signals ++ [false] }
  | .failureFires => { s with signals := s.signals.set (s.signals.length - 1) true }
  | .put => { s with queue := s.queue ++ [s.count], count := s.count + 1 }
  | .getMessage => { s with calls := s.calls ++ [GetCall.begin s.signals] }
  | .readDone i => s.readDone i
  | .wake i => s.update i fun c => c.wake s.signals
  | .drained i ok => s.update i fun c => c.drained ok
  | .gathered i => s.update i GetCall.gathered
  | .cancel i => s.update i GetCall.cancel

def start : SubscriptionReads := {}

/-! ## Messages -/

/-- The messages that calls have taken. -/
def takenBy (s : SubscriptionReads) : List Nat := s.calls.filterMap GetCall.taken

/-- What a call has taken it returns, or is about to. -/
def Keeps (c : GetCall) : Prop :=
  match c.pc with
  | .reading => c.taken = none ∧ c.signal = none
  | .waiting => c.signal.isSome
  | .draining m => c.taken = some m
  | .finishing (.returned m) | .ended (.returned m) => c.taken = some m
  | .finishing _ | .ended _ => c.taken = none

/-- Every message put is in the queue or was taken by one call, which keeps it. -/
structure Kept (s : SubscriptionReads) : Prop where
  messages : (s.queue ++ s.takenBy).Perm (List.range s.count)
  calls : ∀ c ∈ s.calls, Keeps c

/-- The call goes on to return what it has taken: it is not cancelled, no failure reaches it
    and its drain does not fail. -/
def Spared (signals : List Bool) (c : GetCall) (i : Nat) (e : ReadEvent) : Prop :=
  (e = .cancel i → ∃ outcome, c.pc = .ended outcome) ∧
  (e = .wake i → c.pc = .waiting → c.failed signals = false) ∧
  (e = .drained i false → ∀ m, c.pc ≠ .draining m)

/-- Every call that has taken a message is spared. -/
def spares (s : SubscriptionReads) (e : ReadEvent) : Prop :=
  ∀ i c, s.calls[i]? = some c → c.taken ≠ none → Spared s.signals c i e

/-! ### Steps of a call -/

theorem taken_leave (c : GetCall) (outcome : GetOutcome) : (c.leave outcome).taken = c.taken := by
  unfold GetCall.leave
  split <;> rfl

theorem taken_wake (c : GetCall) (signals : List Bool) : (c.wake signals).taken = c.taken := by
  unfold GetCall.wake
  split
  · split
    · exact taken_leave c _
    · split <;> rfl
  · rfl

theorem taken_drained (c : GetCall) (ok : Bool) : (c.drained ok).taken = c.taken := by
  unfold GetCall.drained
  split
  · exact taken_leave c _
  · rfl

theorem taken_gathered (c : GetCall) : c.gathered.taken = c.taken := by
  unfold GetCall.gathered
  split <;> rfl

theorem taken_cancel (c : GetCall) : c.cancel.taken = c.taken := by
  unfold GetCall.cancel
  split
  · exact taken_leave c _
  · exact taken_leave c _
  · exact taken_leave c _
  · rfl
  · rfl

/-- A call that leaves its body keeps what it returns, and nothing if it raises. -/
theorem keeps_leave {c : GetCall} {outcome : GetOutcome} :
    Keeps (c.leave outcome) ↔
      match outcome with
      | .returned m => c.taken = some m
      | _ => c.taken = none := by
  unfold GetCall.leave
  split <;> cases outcome <;> exact Iff.rfl

theorem Keeps.begin (signals : List Bool) : Keeps (GetCall.begin signals) := by
  unfold GetCall.begin
  split
  · exact ⟨rfl, rfl⟩
  · exact rfl
  · exact rfl

theorem Keeps.read {c : GetCall} (h : Keeps c) (hread : c.isReading = true) (m : Nat) :
    c.taken = none ∧ Keeps (c.read m) := by
  unfold GetCall.isReading at hread
  unfold GetCall.read
  split at hread
  · next hpc =>
    rw [Keeps, hpc] at h
    rw [h.2]
    exact ⟨h.1, rfl⟩
  · next hpc =>
    have hk := h
    rw [Keeps, hpc] at hk
    dsimp only at hk
    rw [if_pos hk]
    refine ⟨Option.isNone_iff_eq_none.1 hread, ?_⟩
    rw [Keeps, hpc]
    exact hk
  all_goals cases hread

theorem Keeps.gathered {c : GetCall} (h : Keeps c) : Keeps c.gathered := by
  unfold GetCall.gathered
  split
  · next outcome hpc =>
    rw [Keeps, hpc] at h
    cases outcome <;> exact h
  · exact h

/-- A wake-up loses the message exactly when the failure signal is done too. -/
theorem Keeps.wake_iff {c : GetCall} (h : Keeps c) (signals : List Bool) :
    Keeps (c.wake signals) ↔ (c.taken ≠ none → c.pc = .waiting → c.failed signals = false) := by
  unfold GetCall.wake
  split
  · next hpc =>
    split
    · next hf =>
      rw [keeps_leave]
      simp [hf, hpc]
    · next hf =>
      have hspared : c.failed signals = false := Bool.eq_false_of_not_eq_true hf
      split
      · simpa [hspared] using h
      · next m hm =>
        exact ⟨fun _ _ _ => hspared, fun _ => hm⟩
  · next hpc => exact ⟨fun _ _ hw => absurd hw hpc, fun _ => h⟩

/-- A drain loses the message exactly when it fails. -/
theorem Keeps.drained_iff {c : GetCall} (h : Keeps c) (ok : Bool) :
    Keeps (c.drained ok) ↔ (c.taken ≠ none → ok = false → ∀ m, c.pc ≠ .draining m) := by
  unfold GetCall.drained
  split
  · next m hpc =>
    have hm : c.taken = some m := by rw [Keeps, hpc] at h; exact h
    rw [keeps_leave]
    cases ok <;> simp [hm, hpc]
  · next hpc => exact ⟨fun _ _ _ m hm => hpc m hm, fun _ => h⟩

/-- A cancellation loses the message of every call that has taken one and not ended. -/
theorem Keeps.cancel_iff {c : GetCall} (h : Keeps c) :
    Keeps c.cancel ↔ (c.taken ≠ none → ∃ outcome, c.pc = .ended outcome) := by
  unfold GetCall.cancel
  split
  · next hpc => simp [keeps_leave, hpc]
  · next hpc => simp [keeps_leave, hpc]
  · next hpc => simp [keeps_leave, hpc]
  · next hpc =>
    change c.taken = none ↔ _
    simp [hpc]
  · next outcome hpc => simp [h, hpc]

/-! ### Steps of the subscription -/

/-- A call that changes without taking a message leaves the messages where they are. -/
theorem Kept.update_iff {s : SubscriptionReads} (h : Kept s) {i : Nat} {g : GetCall → GetCall}
    (htaken : ∀ c, (g c).taken = c.taken) :
    Kept (s.update i g) ↔ ∀ c, s.calls[i]? = some c → Keeps (g c) := by
  unfold SubscriptionReads.update
  split
  · next hnone => simp [h, hnone]
  · next c hc =>
    have hcalls := forall_mem_set_iff (y := g c) hc h.calls
    have hsame : (s.calls.set i (g c)).filterMap GetCall.taken = s.takenBy :=
      filterMap_set_of_eq hc (htaken c)
    constructor
    · intro hk c' hc'
      cases hc.symm.trans hc'
      exact hcalls.1 hk.calls
    · intro hk
      refine ⟨?_, hcalls.2 (hk c hc)⟩
      change (s.queue ++ (s.calls.set i (g c)).filterMap GetCall.taken).Perm _
      rw [hsame]
      exact h.messages

theorem Kept.readDone {s : SubscriptionReads} (h : Kept s) (i : Nat) : Kept (s.readDone i) := by
  unfold SubscriptionReads.readDone
  split
  · next c m queue hc hq =>
    split
    · next hread =>
      obtain ⟨hnone, hkeeps⟩ := (h.calls c (List.mem_of_getElem? hc)).read hread m
      have htaken : (c.read m).taken = some m := by
        unfold GetCall.read
        split <;> rfl
      refine ⟨?_, (forall_mem_set_iff hc h.calls).2 hkeeps⟩
      have hmessages := h.messages
      rw [hq] at hmessages
      exact ((filterMap_set_of_none hc hnone htaken).append_left queue).trans
        (List.perm_middle.trans hmessages)
    · exact h
  · exact h

/-- A step keeps every message exactly when it spares the calls. -/
theorem Kept.step_iff {s : SubscriptionReads} (h : Kept s) (e : ReadEvent) :
    Kept (s.step e) ↔ s.spares e := by
  have hkeeps : ∀ i c, s.calls[i]? = some c → Keeps c :=
    fun i c hc => h.calls c (List.mem_of_getElem? hc)
  cases e with
  | clientEntered =>
    exact ⟨fun _ i c _ _ => ⟨nofun, nofun, nofun⟩, fun _ => ⟨h.messages, h.calls⟩⟩
  | failureFires =>
    exact ⟨fun _ i c _ _ => ⟨nofun, nofun, nofun⟩, fun _ => ⟨h.messages, h.calls⟩⟩
  | put =>
    refine ⟨fun _ i c _ _ => ⟨nofun, nofun, nofun⟩, fun _ => ⟨?_, h.calls⟩⟩
    change (s.queue ++ [s.count] ++ s.takenBy).Perm (List.range (s.count + 1))
    rw [List.range_succ, List.append_assoc]
    exact (List.perm_append_comm_assoc _ _ _).trans
      ((h.messages.append_left [s.count]).trans List.perm_append_comm)
  | getMessage =>
    refine ⟨fun _ i c _ _ => ⟨nofun, nofun, nofun⟩, fun _ => ⟨?_, ?_⟩⟩
    · have hnone : (GetCall.begin s.signals).taken = none := by
        unfold GetCall.begin
        split <;> rfl
      change (s.queue ++ (s.calls ++ [GetCall.begin s.signals]).filterMap GetCall.taken).Perm _
      rw [List.filterMap_append, List.filterMap_cons_none hnone, List.filterMap_nil,
        List.append_nil]
      exact h.messages
    · intro c hc
      obtain hc | hc := List.mem_append.1 hc
      · exact h.calls c hc
      · rw [List.mem_singleton.1 hc]
        exact Keeps.begin s.signals
  | readDone i => exact ⟨fun _ i c _ _ => ⟨nofun, nofun, nofun⟩, fun _ => h.readDone i⟩
  | gathered i =>
    refine ⟨fun _ i c _ _ => ⟨nofun, nofun, nofun⟩, fun _ => ?_⟩
    exact (h.update_iff taken_gathered).2 fun c hc => (hkeeps i c hc).gathered
  | wake i =>
    rw [show s.step (.wake i) = s.update i (fun c => c.wake s.signals) from rfl,
      h.update_iff fun c => taken_wake c s.signals]
    constructor
    · intro hk j c hc hne
      refine ⟨nofun, fun he => ?_, nofun⟩
      cases he
      exact ((hkeeps i c hc).wake_iff s.signals).1 (hk c hc) hne
    · intro hsp c hc
      exact ((hkeeps i c hc).wake_iff s.signals).2 fun hne => (hsp i c hc hne).2.1 rfl
  | drained i ok =>
    rw [show s.step (.drained i ok) = s.update i (fun c => c.drained ok) from rfl,
      h.update_iff fun c => taken_drained c ok]
    constructor
    · intro hk j c hc hne
      refine ⟨nofun, nofun, fun he => ?_⟩
      cases he
      exact ((hkeeps i c hc).drained_iff false).1 (hk c hc) hne rfl
    · intro hsp c hc
      refine ((hkeeps i c hc).drained_iff ok).2 fun hne hok => ?_
      subst hok
      exact (hsp i c hc hne).2.2 rfl
  | cancel i =>
    rw [show s.step (.cancel i) = s.update i GetCall.cancel from rfl, h.update_iff taken_cancel]
    constructor
    · intro hk j c hc hne
      refine ⟨fun he => ?_, nofun, nofun⟩
      cases he
      exact (hkeeps i c hc).cancel_iff.1 (hk c hc) hne
    · intro hsp c hc
      exact (hkeeps i c hc).cancel_iff.2 fun hne => (hsp i c hc hne).1 rfl

/-! ## Runs -/

/-- **No lost message.** In every run whose steps spare the calls that have taken a message,
    every message put is in the queue or with the one call that has returned it or goes on to
    return it, and a call that raised has taken none; the first step that does not spare such
    a call loses its message. -/
theorem messages_kept {s : SubscriptionReads} (h : Reach step spares start s) :
    Kept s ∧ ∀ e, ¬ s.spares e → ¬ Kept (s.step e) := by
  have hkept : Kept s := by
    refine Reach.invariant h ⟨List.Perm.refl _, by simp [start]⟩ fun s e hs hok => ?_
    exact (hs.step_iff e).2 hok
  exact ⟨hkept, fun e hnot hk => hnot ((hkept.step_iff e).1 hk)⟩

/-- Two messages; one call is cancelled before it takes any, the other returns the first. -/
def timeoutRun : List ReadEvent :=
  [.clientEntered, .getMessage, .cancel 0, .gathered 0, .put, .getMessage, .put, .readDone 1,
    .wake 1, .drained 1 true, .gathered 1]

theorem messages_kept_timeoutRun :
    (timeoutRun.foldl step start).calls.map GetCall.pc =
      [.ended .cancelled, .ended (.returned 0)] ∧
    Kept (timeoutRun.foldl step start) := by
  refine ⟨by decide +kernel, (messages_kept (Reach.foldl ?_)).1⟩
  have hquiet : ∀ (s : SubscriptionReads) e, (∀ i, e ≠ .cancel i) → (∀ i, e ≠ .wake i) →
      (∀ i, e ≠ .drained i false) → s.spares e :=
    fun s e hc hw hd i c _ _ => ⟨fun h => absurd h (hc i), fun h => absurd h (hw i),
      fun h => absurd h (hd i)⟩
  refine ⟨hquiet _ _ nofun nofun nofun, hquiet _ _ nofun nofun nofun, ?_,
    hquiet _ _ nofun nofun nofun, hquiet _ _ nofun nofun nofun, hquiet _ _ nofun nofun nofun,
    hquiet _ _ nofun nofun nofun, hquiet _ _ nofun nofun nofun, ?_,
    hquiet _ _ nofun nofun nofun, hquiet _ _ nofun nofun nofun, trivial⟩
  · intro i c hc hne
    refine ⟨fun he => ?_, nofun, nofun⟩
    cases he
    cases hc
    exact absurd rfl hne
  · intro i c hc hne
    refine ⟨nofun, fun he => ?_, nofun⟩
    cases he
    cases hc
    exact fun _ => rfl

/-- The call is cancelled in `asyncio.wait` after its helper task has read a message. -/
def lostRun : List ReadEvent :=
  [.clientEntered, .getMessage, .put, .readDone 0, .cancel 0, .gathered 0]

theorem message_lost :
    ¬ (∀ s, Reach step anyStep start s → Kept s) ∧
    (lostRun.foldl step start).calls.map GetCall.pc = [.ended .cancelled] ∧
    (lostRun.foldl step start).takenBy = [0] ∧ (lostRun.foldl step start).queue = [] := by
  refine ⟨fun h => ?_, by decide +kernel, by decide +kernel, by decide +kernel⟩
  have hk := (h _ (Reach.foldl (meets_anyStep lostRun))).calls
    { signal := some 0, pc := .ended .cancelled, taken := some 0 } (by decide +kernel)
  cases hk

end SubscriptionReads

end Zmqtt
