/-
  Runs of a state machine given by a total step function: an event that is not
  enabled leaves the state unchanged. A run may be restricted by a condition on
  each step, which is read in the state before it.
-/
import Mathlib.Tactic
import Mathlib.Logic.Relation

namespace Zmqtt

section Machine

variable {σ ε : Type}

/-- The states reached from `s₀` by steps that all meet `ok`. -/
def Reach (step : σ → ε → σ) (ok : σ → ε → Prop) (s₀ s : σ) : Prop :=
  Relation.ReflTransGen (fun s s' => ∃ e, ok s e ∧ s' = step s e) s₀ s

/-- Any step. -/
def anyStep (_ : σ) (_ : ε) : Prop := True

variable {step : σ → ε → σ} {ok : σ → ε → Prop} {s₀ s : σ}

/-- **Invariant rule.** What holds initially and is kept by every step that meets the
    condition holds in every state reached. -/
theorem Reach.invariant {I : σ → Prop} (h : Reach step ok s₀ s) (h₀ : I s₀)
    (hstep : ∀ s e, I s → ok s e → I (step s e)) : I s := by
  induction h with
  | refl => exact h₀
  | tail _ hs ih =>
    obtain ⟨e, hok, rfl⟩ := hs
    exact hstep _ e ih hok

/-- A run under a condition is one under a weaker condition. -/
theorem Reach.mono {ok' : σ → ε → Prop} (h : Reach step ok s₀ s)
    (hok : ∀ s e, ok s e → ok' s e) : Reach step ok' s₀ s := by
  induction h with
  | refl => exact Relation.ReflTransGen.refl
  | tail _ hs ih =>
    obtain ⟨e, he, rfl⟩ := hs
    exact ih.tail ⟨e, hok _ e he, rfl⟩

/-- All the steps of a list of events meet the condition. -/
def Meets (step : σ → ε → σ) (ok : σ → ε → Prop) : σ → List ε → Prop
  | _, [] => True
  | s, e :: es => ok s e ∧ Meets step ok (step s e) es

theorem Reach.foldl {es : List ε} (h : Meets step ok s₀ es) :
    Reach step ok s₀ (es.foldl step s₀) := by
  induction es generalizing s₀ with
  | nil => exact Relation.ReflTransGen.refl
  | cons e es ih => exact Relation.ReflTransGen.head ⟨e, h.1, rfl⟩ (ih h.2)

theorem meets_anyStep (es : List ε) : Meets step anyStep s₀ es := by
  induction es generalizing s₀ with
  | nil => trivial
  | cons e es ih => exact ⟨trivial, ih⟩

end Machine

end Zmqtt
