/-
  Capped exponential back-off: each delay is the one before times a factor, but no more than a
  cap. The cap is applied step by step; from a first delay within the cap this is the capped
  power (`backoff_eq`).
-/
import Mathlib.Algebra.Order.Ring.Defs
import Mathlib.Tactic.GCongr
import Mathlib.Tactic.Ring

namespace Zmqtt

section Backoff

variable {K : Type} [CommRing K] [LinearOrder K]

/-- The delay after `n` waits. -/
def backoff (initial factor cap : K) : Nat → K
  | 0 => initial
  | n + 1 => min (backoff initial factor cap n * factor) cap

variable {initial factor cap : K}

theorem backoff_le (hcap : initial ≤ cap) (n : Nat) : backoff initial factor cap n ≤ cap := by
  cases n with
  | zero => exact hcap
  | succ n => exact min_le_right _ _

variable [IsStrictOrderedRing K]

/-- Capping each step is capping the power. -/
theorem backoff_eq (hinitial : 0 ≤ initial) (hcap : initial ≤ cap) (hfactor : 1 ≤ factor) (n : Nat) :
    backoff initial factor cap n = min (initial * factor ^ n) cap := by
  have hcap0 : 0 ≤ cap := hinitial.trans hcap
  induction n with
  | zero => rw [backoff, pow_zero, mul_one, min_eq_left hcap]
  | succ n ih =>
    have hgrow : cap ≤ cap * factor := le_mul_of_one_le_right hcap0 hfactor
    have hpow : initial * factor ^ (n + 1) = initial * factor ^ n * factor := by ring
    rw [backoff, ih, min_mul_of_nonneg _ _ (zero_le_one.trans hfactor), hpow, min_assoc,
      min_eq_right hgrow]

/-- The delays never shrink. -/
theorem backoff_mono (hinitial : 0 ≤ initial) (hcap : initial ≤ cap) (hfactor : 1 ≤ factor) :
    Monotone (backoff initial factor cap) := by
  refine monotone_nat_of_le_succ fun n => ?_
  have hle : backoff initial factor cap n ≤ cap := backoff_le hcap n
  have hpos : 0 ≤ backoff initial factor cap n := by
    rw [backoff_eq hinitial hcap hfactor]
    exact le_min (mul_nonneg hinitial (pow_nonneg (zero_le_one.trans hfactor) n))
      (hinitial.trans hcap)
  exact le_min (le_mul_of_one_le_right hpos hfactor) hle

end Backoff

end Zmqtt
