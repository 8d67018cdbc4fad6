/-
  `_run_loop` and `_connect_with_retry` of the client (`client.py`): which failures of a
  reconnect attempt are retried, which end the loop, and which are reported to
  `on_connection_recovery_failed`.

  The loop is suspended while the protocol runs, while the lost transport is closed, in
  `asyncio.sleep` before an attempt, in the attempt, and in the callback; it can be cancelled
  in each. Delays are rationals.
-/
import Zmqtt.Lib.Machine
import Mathlib.Data.Rat.Defs

namespace Zmqtt

/-- `ReconnectConfig`. -/
structure ReconnectConfig where
  enabled : Bool := true
  initialDelay : ℚ := 1
  maxDelay : ℚ := 60
  backoffFactor : ℚ := 2
  maxAttempts : Option Int := some 5
  deriving DecidableEq

/-- What `_connect` raises: the transport factory, or the handshake. -/
inductive ConnectError where
  | osError
  | timeout
  | connectError (returnCode : Int)
  | disconnected
  | protocolError
  deriving Repr, DecidableEq

/-- How the `try` block around a running protocol ends. -/
inductive ServeEnd where
  | clean
  | disconnected
  | timeout
  | failed
  deriving Repr, DecidableEq

/-- Why the loop stopped. -/
inductive StopReason where
  | clean
  | cancelled
  | lost
  | servingFailed
  | reconnectFailed (e : ConnectError)
  | callbackFailed
  deriving Repr, DecidableEq

/-- Where the loop is suspended; `attempt` counts the failed attempts. -/
inductive LoopPhase where
  | serving
  | closing
  | sleeping (attempt : Nat) (delay : ℚ)
  | connecting (attempt : Nat) (delay : ℚ)
  | notifying (reason : StopReason)
  | stopped (reason : StopReason)
  deriving DecidableEq

/-- `_run_loop`; `awaited` counts the calls of `on_connection_recovery_failed`, `losses` the
    lost connections and `recoveries` the successful attempts. -/
structure RunLoop where
  config : ReconnectConfig := {}
  onConnectionRecoveryFailed : Bool := true
  phase : LoopPhase := .serving
  awaited : Nat := 0
  losses : Nat := 0
  recoveries : Nat := 0
  deriving DecidableEq

/-- What can happen to the loop at an await. -/
inductive LoopEvent where
  | serveEnds (result : ServeEnd)
  | closed
  | wakes
  | attempted (result : Option ConnectError)
  | callbackEnds (ok : Bool)
  | cancel
  deriving Repr, DecidableEq

namespace RunLoop

/-- `_notify_connection_recovery_failed`, up to its await; `reason` is raised after it. -/
def notifyConnectionRecoveryFailed (s : RunLoop) (reason : StopReason) : RunLoop :=
  if s.onConnectionRecoveryFailed then
    { s with phase := .notifying reason, awaited := s.awaited + 1 }
  else { s with phase := .stopped reason }

/-- The `except` clauses and the rest of `_run_loop` after the `try` block. -/
def serveEnds (s : RunLoop) : ServeEnd → RunLoop
  | .clean => { s with phase := .stopped .clean }
  | .failed => { s with phase := .stopped .servingFailed }
  | .disconnected | .timeout =>
      if s.config.enabled then { s with phase := .closing, losses := s.losses + 1 }
      else { s with losses := s.losses + 1 }.notifyConnectionRecoveryFailed .lost

/-- `min(delay * backoff_factor, max_delay)`. -/
def nextDelay (config : ReconnectConfig) (delay : ℚ) : ℚ :=
  min (delay * config.backoffFactor) config.maxDelay

/-- `not enabled or (max_a is not None and attempt >= max_a)`. -/
def givesUp (config : ReconnectConfig) (attempt : Nat) : Bool :=
  !config.enabled || config.maxAttempts.any fun max => decide (max ≤ (attempt : Int))

/-- The `except` clause of `_run_loop` around the reconnect phase. -/
def reconnectRaises (s : RunLoop) (e : ConnectError) : RunLoop :=
  match e with
  | .connectError _ | .timeout | .osError => s.notifyConnectionRecoveryFailed (.reconnectFailed e)
  | .disconnected | .protocolError => { s with phase := .stopped (.reconnectFailed e) }

/-- The loop of `_connect_with_retry` after an attempt. -/
def attempted (s : RunLoop) (attempt : Nat) (delay : ℚ) : Option ConnectError → RunLoop
  | none => { s with phase := .serving, recoveries := s.recoveries + 1 }
  | some e =>
      match e with
      | .osError | .timeout =>
          if givesUp s.config (attempt + 1) then s.reconnectRaises e
          else { s with phase := .sleeping (attempt + 1) delay }
      | .connectError _ | .disconnected | .protocolError => s.reconnectRaises e

def step (s : RunLoop) (e : LoopEvent) : RunLoop :=
  match s.phase, e with
  | .stopped _, _ => s
  | _, .cancel => { s with phase := .stopped .cancelled }
  | .serving, .serveEnds result => s.serveEnds result
  | .closing, .closed => { s with phase := .sleeping 0 s.config.initialDelay }
  | .sleeping attempt delay, .wakes =>
      { s with phase := .connecting attempt (nextDelay s.config delay) }
  | .connecting attempt delay, .attempted result => s.attempted attempt delay result
  | .notifying reason, .callbackEnds ok =>
      { s with phase := .stopped (if ok then reason else .callbackFailed) }
  | _, _ => s

/-- The loop right after the first connection was established. -/
def start (config : ReconnectConfig) : RunLoop := { config }

/-! ## Reports -/

/-- The failures of an attempt that `_run_loop` reports. -/
def reported : ConnectError → Bool
  | .osError | .timeout | .connectError _ => true
  | .disconnected | .protocolError => false

/-- How often the callback was awaited by the time the loop is in a phase. -/
def AwaitedIn (n : Nat) : LoopPhase → Prop
  | .serving | .closing | .sleeping _ _ | .connecting _ _ => n = 0
  | .notifying reason =>
      n = 1 ∧ (reason = .lost ∨ ∃ e, reason = .reconnectFailed e ∧ reported e = true)
  | .stopped .clean | .stopped .servingFailed => n = 0
  | .stopped .cancelled => n ≤ 1
  | .stopped .lost | .stopped .callbackFailed => n = 1
  | .stopped (.reconnectFailed e) => n = if reported e then 1 else 0

/-- How many losses there are more than recoveries while the loop is in a phase. -/
def lossesOpen : LoopPhase → Nat
  | .serving => 0
  | .closing | .sleeping _ _ | .connecting _ _ | .notifying _ => 1
  | .stopped reason => if reason = .clean ∨ reason = .servingFailed then 0 else 1

/-- The reports so far. -/
structure Reports (s : RunLoop) : Prop where
  callback : s.onConnectionRecoveryFailed = true
  awaited : AwaitedIn s.awaited s.phase
  balance : s.phase ≠ .stopped .cancelled → s.losses = s.recoveries + lossesOpen s.phase
  lossOpen : s.losses = s.recoveries → s.awaited = 0

/-- The loop while no failure was reported. -/
structure Unreported (s : RunLoop) (n : Nat) : Prop where
  callback : s.onConnectionRecoveryFailed = true
  awaited : s.awaited = 0
  balance : s.losses = s.recoveries + n

theorem Unreported.notify {s : RunLoop} (h : Unreported s 1) {reason : StopReason}
    (hreason : reason = .lost ∨ ∃ e, reason = .reconnectFailed e ∧ reported e = true) :
    Reports (s.notifyConnectionRecoveryFailed reason) := by
  have hbal := h.balance
  unfold notifyConnectionRecoveryFailed
  rw [if_pos h.callback]
  refine ⟨h.callback, ⟨by rw [h.awaited], hreason⟩, fun _ => hbal, fun he => ?_⟩
  dsimp only at he
  omega

theorem Unreported.serveEnds {s : RunLoop} (h : Unreported s 0) (result : ServeEnd) :
    Reports (s.serveEnds result) := by
  have hbal := h.balance
  have hlost : Reports (if s.config.enabled then
      { s with phase := .closing, losses := s.losses + 1 }
      else { s with losses := s.losses + 1 }.notifyConnectionRecoveryFailed .lost) := by
    have hopen : Unreported { s with losses := s.losses + 1 } 1 :=
      ⟨h.callback, h.awaited, by dsimp only; omega⟩
    split
    · exact ⟨h.callback, h.awaited, fun _ => hopen.balance, fun _ => h.awaited⟩
    · exact hopen.notify (Or.inl rfl)
  cases result with
  | clean => exact ⟨h.callback, h.awaited, fun _ => hbal, fun _ => h.awaited⟩
  | failed => exact ⟨h.callback, h.awaited, fun _ => hbal, fun _ => h.awaited⟩
  | disconnected => exact hlost
  | timeout => exact hlost

theorem Unreported.reconnectRaises {s : RunLoop} (h : Unreported s 1) (e : ConnectError) :
    Reports (s.reconnectRaises e) := by
  cases e with
  | osError => exact h.notify (Or.inr ⟨_, rfl, rfl⟩)
  | timeout => exact h.notify (Or.inr ⟨_, rfl, rfl⟩)
  | connectError code => exact h.notify (Or.inr ⟨_, rfl, rfl⟩)
  | disconnected => exact ⟨h.callback, h.awaited, fun _ => h.balance, fun _ => h.awaited⟩
  | protocolError => exact ⟨h.callback, h.awaited, fun _ => h.balance, fun _ => h.awaited⟩

theorem Unreported.attempted {s : RunLoop} (h : Unreported s 1) (attempt : Nat) (delay : ℚ)
    (result : Option ConnectError) : Reports (s.attempted attempt delay result) := by
  have hbal := h.balance
  cases result with
  | none => exact ⟨h.callback, h.awaited, fun _ => hbal, fun _ => h.awaited⟩
  | some e =>
    have hretry : Reports (if givesUp s.config (attempt + 1) then s.reconnectRaises e
        else { s with phase := .sleeping (attempt + 1) delay }) := by
      split
      · exact h.reconnectRaises e
      · exact ⟨h.callback, h.awaited, fun _ => hbal, fun _ => h.awaited⟩
    cases e with
    | osError => exact hretry
    | timeout => exact hretry
    | connectError code => exact h.reconnectRaises (.connectError code)
    | disconnected => exact h.reconnectRaises .disconnected
    | protocolError => exact h.reconnectRaises .protocolError

/-- The callback ends, and the error it was told of is raised. -/
theorem AwaitedIn.callbackEnds {n : Nat} {reason : StopReason} (h : AwaitedIn n (.notifying reason))
    (ok : Bool) : AwaitedIn n (.stopped (if ok then reason else .callbackFailed)) := by
  cases ok with
  | false => exact h.1
  | true =>
    obtain ⟨hone, rfl | ⟨e, rfl, he⟩⟩ := h
    · exact hone
    · change n = if reported e then 1 else 0
      rw [if_pos he]
      exact hone

theorem AwaitedIn.le_one {n : Nat} {phase : LoopPhase} (h : AwaitedIn n phase) : n ≤ 1 := by
  cases phase with
  | serving => exact h.le.trans (Nat.zero_le _)
  | closing => exact h.le.trans (Nat.zero_le _)
  | sleeping _ _ => exact h.le.trans (Nat.zero_le _)
  | connecting _ _ => exact h.le.trans (Nat.zero_le _)
  | notifying _ => exact h.1.le
  | stopped reason =>
    cases reason with
    | clean => exact h.le.trans (Nat.zero_le _)
    | servingFailed => exact h.le.trans (Nat.zero_le _)
    | cancelled => exact h
    | lost => exact h.le
    | callbackFailed => exact h.le
    | reconnectFailed e =>
      have hn : n = if reported e then 1 else 0 := h
      split at hn <;> omega

theorem Reports.step {s : RunLoop} (h : Reports s) (e : LoopEvent) : Reports (s.step e) := by
  have hphase := h.awaited
  have hbal := h.balance
  unfold RunLoop.step
  split
  · exact h
  · exact ⟨h.callback, h.awaited.le_one, fun hne => absurd rfl hne, h.lossOpen⟩
  · next hp =>
    rw [hp] at hphase hbal
    exact Unreported.serveEnds ⟨h.callback, hphase, hbal (by simp)⟩ _
  · next hp =>
    rw [hp] at hphase hbal
    exact ⟨h.callback, hphase, fun _ => hbal (by simp), h.lossOpen⟩
  · next hp =>
    rw [hp] at hphase hbal
    exact ⟨h.callback, hphase, fun _ => hbal (by simp), h.lossOpen⟩
  · next hp =>
    rw [hp] at hphase hbal
    exact Unreported.attempted ⟨h.callback, hphase, hbal (by simp)⟩ _ _ _
  · next reason ok hp =>
    rw [hp] at hphase hbal
    refine ⟨h.callback, hphase.callbackEnds _, fun _ => ?_, h.lossOpen⟩
    have hopen : lossesOpen (.stopped (if ok then reason else .callbackFailed)) = 1 := by
      cases ok with
      | false => rfl
      | true => obtain ⟨-, rfl | ⟨e, rfl, -⟩⟩ := hphase <;> rfl
    rw [hopen]
    exact hbal (by simp)
  · exact h

/-- A failure that ended the reconnect phase was reported once before; while every loss was
    recovered, and on a clean disconnect, nothing was. -/
structure ReportedOnce (s : RunLoop) : Prop where
  failure : ∀ e, s.phase = .stopped (.reconnectFailed e) → s.awaited = 1
  recovered : s.losses = s.recoveries ∨ s.phase = .stopped .clean → s.awaited = 0

/-- The loop stopped with a failure of the last attempt that it does not report. -/
def silent (s : RunLoop) : Prop :=
  ∃ e, s.phase = .stopped (.reconnectFailed e) ∧ reported e = false

theorem Reports.reportedOnce {s : RunLoop} (h : Reports s) : s.ReportedOnce ↔ ¬ s.silent := by
  have hphase := h.awaited
  constructor
  · rintro honce ⟨e, hp, he⟩
    have hone := honce.failure e hp
    rw [hp] at hphase
    have hn : s.awaited = if reported e then 1 else 0 := hphase
    rw [he, if_neg Bool.false_ne_true] at hn
    omega
  · intro hnot
    refine ⟨fun e hp => ?_, ?_⟩
    · rw [hp] at hphase
      have hn : s.awaited = if reported e then 1 else 0 := hphase
      cases he : reported e with
      | false => exact absurd ⟨e, hp, he⟩ hnot
      | true => rw [he] at hn; exact hn
    · rintro (he | hp)
      · exact h.lossOpen he
      · rw [hp] at hphase
        exact hphase

/-- The attempt does not end with a close of the peer before CONNACK (`MQTTDisconnectedError`)
    or with an unexpected packet (`MQTTProtocolError`). -/
def answered (s : RunLoop) (event : LoopEvent) : Prop :=
  ∀ attempt delay e, s.phase = .connecting attempt delay → event = .attempted (some e) →
    reported e = true

theorem phase_notify_ne (s : RunLoop) {reason : StopReason} {e : ConnectError}
    (hne : reason ≠ .reconnectFailed e) :
    (s.notifyConnectionRecoveryFailed reason).phase ≠ .stopped (.reconnectFailed e) := by
  unfold notifyConnectionRecoveryFailed
  split
  · simp
  · simpa using hne

/-- Only an attempt that was not answered ends the loop in silence. -/
theorem silent_step {s : RunLoop} (h : Reports s) (hs : ¬ s.silent) (event : LoopEvent) :
    (s.step event).silent ↔ ¬ s.answered event := by
  constructor
  · rintro ⟨e, hp, he⟩ hans
    unfold RunLoop.step at hp
    split at hp
    · exact hs ⟨e, hp, he⟩
    · simp at hp
    · next hserving =>
      unfold serveEnds at hp
      split at hp
      · simp at hp
      · simp at hp
      all_goals
        split at hp
        · simp at hp
        · exact phase_notify_ne _ (by simp) hp
    · simp at hp
    · simp at hp
    · next attempt delay result hphase =>
      unfold attempted reconnectRaises at hp
      split at hp
      · simp at hp
      · next e' =>
        have hrep := hans attempt delay e' hphase rfl
        have hne : StopReason.reconnectFailed e' ≠ .reconnectFailed e := by
          rintro heq
          cases heq
          rw [hrep] at he
          cases he
        cases e' with
        | osError | timeout =>
          dsimp only at hp
          split at hp
          · exact phase_notify_ne _ hne hp
          · simp at hp
        | connectError code => exact phase_notify_ne _ hne hp
        | disconnected => cases hrep
        | protocolError => cases hrep
    · next reason ok hphase =>
      have hnot := h.awaited
      rw [hphase] at hnot
      have hreason : (if ok then reason else .callbackFailed) = .reconnectFailed e := by
        simpa using hp
      cases ok with
      | false => cases hreason
      | true =>
        obtain ⟨-, rfl | ⟨e', rfl, he'⟩⟩ := hnot
        · cases hreason
        · cases hreason
          rw [he] at he'
          cases he'
    · exact hs ⟨e, hp, he⟩
  · intro hans
    unfold answered at hans
    push Not at hans
    obtain ⟨attempt, delay, e, hphase, rfl, he⟩ := hans
    have he := Bool.eq_false_of_not_eq_true he
    refine ⟨e, ?_, he⟩
    unfold RunLoop.step
    rw [hphase]
    cases e with
    | disconnected => rfl
    | protocolError => rfl
    | osError => cases he
    | timeout => cases he
    | connectError code => cases he

/-- **Reported recovery failures.** In every run whose reconnect attempts are all answered the
    failure that ends the loop was reported exactly once; an attempt that is not answered ends
    the loop without a report. -/
theorem recovery_failure_reported (config : ReconnectConfig) :
    (∀ s, Reach step answered (start config) s → s.ReportedOnce) ∧
    ∀ s event, Reach step answered (start config) s → ¬ s.answered event →
      ¬ (s.step event).ReportedOnce := by
  have hinv : ∀ s, Reach step answered (start config) s → Reports s ∧ ¬ s.silent := by
    intro s h
    refine Reach.invariant (I := fun s => Reports s ∧ ¬ s.silent) h
      ⟨⟨rfl, rfl, fun _ => rfl, fun _ => rfl⟩, ?_⟩ fun s event hs hok => ?_
    · rintro ⟨e, hp, -⟩
      cases hp
    · exact ⟨hs.1.step event, fun hsil => (silent_step hs.1 hs.2 event).1 hsil hok⟩
  refine ⟨fun s h => (hinv s h).1.reportedOnce.2 (hinv s h).2, fun s event h hans honce => ?_⟩
  obtain ⟨hrep, hsil⟩ := hinv s h
  exact (hrep.step event).reportedOnce.1 honce ((silent_step hrep hsil event).2 hans)

/-- Two losses: the first is recovered at the second attempt, the second is not. -/
def twoLossesRun : List LoopEvent :=
  [.serveEnds .disconnected, .closed, .wakes, .attempted (some .osError), .wakes, .attempted none,
    .serveEnds .timeout, .closed, .wakes, .attempted (some (.connectError 5)), .callbackEnds true]

theorem recovery_failure_reported_twoLossesRun :
    (twoLossesRun.foldl step (start {})).phase = .stopped (.reconnectFailed (.connectError 5)) ∧
    (twoLossesRun.foldl step (start {})).ReportedOnce := by
  refine ⟨by decide +kernel, (recovery_failure_reported {}).1 _ (Reach.foldl ?_)⟩
  refine ⟨?_, ?_, ?_, ?_, ?_, ?_, ?_, ?_, ?_, ?_, ?_, trivial⟩ <;> intro attempt delay e _ he <;>
    cases he <;> rfl

/-- The broker accepts the connection and closes it before CONNACK. -/
def refusedRun : List LoopEvent :=
  [.serveEnds .disconnected, .closed, .wakes, .attempted (some .disconnected)]

theorem recovery_failure_unreported :
    ¬ (∀ s, Reach step anyStep (start {}) s → s.ReportedOnce) ∧
    (refusedRun.foldl step (start {})).phase = .stopped (.reconnectFailed .disconnected) ∧
    (refusedRun.foldl step (start {})).awaited = 0 := by
  refine ⟨fun h => ?_, by decide +kernel, by decide +kernel⟩
  have hone := (h _ (Reach.foldl (meets_anyStep refusedRun))).failure .disconnected (by decide +kernel)
  revert hone
  decide +kernel

end RunLoop

end Zmqtt
