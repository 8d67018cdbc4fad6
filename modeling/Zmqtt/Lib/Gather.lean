/-
  `asyncio.gather` in a parent task that owns its children: it waits for all of them, cancels
  the others at the first failure, waits for them again and raises what failed first.

  A child that has ended is heard of later, by its done callback (`notice`). `cancel` on a
  parent that waits in `gather` goes to the children; when no child can be cancelled, or the
  result is there already, the CancelledError is thrown into the parent when it is resumed.
-/
import Mathlib.Data.Fintype.Card
import Mathlib.Tactic

namespace Zmqtt

/-! ## Tasks -/

/-- How a task ended. -/
inductive TaskEnd (ε : Type) where
  | returned
  | raised (e : ε)
  | cancelled
  deriving Repr, DecidableEq

/-- A child task; a task that has ended ignores a request. -/
structure ChildTask (ε : Type) where
  cancelRequested : Bool := false
  outcome : Option (TaskEnd ε) := none

/-- Where the parent is. A task that is cancelled before its first step is `skipped`: no line
    of its code runs. -/
inductive GatherStage (ε : Type) where
  | created
  | gathering
  | cleaning (failure : TaskEnd ε)
  | ended (outcome : TaskEnd ε)
  | skipped
  deriving Repr, DecidableEq

/-- The parent with its children. `result` is the future that `gather` returned, and
    `gatherCancelled` says that it was cancelled; `cancelled` says that `cancel()` was called
    on the parent. -/
structure Gather (ι ε : Type) where
  stage : GatherStage ε := .created
  children : ι → ChildTask ε := fun _ => {}
  noticed : ι → Bool := fun _ => false
  result : Option (TaskEnd ε) := none
  gatherCancelled : Bool := false
  mustCancel : Bool := false
  cancelled : Bool := false

namespace Gather

variable {ι ε : Type}

def outcome (g : Gather ι ε) (i : ι) : Option (TaskEnd ε) := (g.children i).outcome

def asked (g : Gather ι ε) (i : ι) : Bool := (g.children i).cancelRequested

/-- The children exist, and child `i` has not ended. -/
def live (g : Gather ι ε) (i : ι) : Bool :=
  match g.stage with
  | .created | .skipped => false
  | .gathering | .cleaning _ | .ended _ => (g.outcome i).isNone

def hasEnded (g : Gather ι ε) : Bool :=
  match g.stage with
  | .ended _ => true
  | .created | .gathering | .cleaning _ | .skipped => false

/-- The first step of the parent. -/
def start (g : Gather ι ε) : Gather ι ε :=
  match g.stage with
  | .created => { g with stage := if g.mustCancel then .skipped else .gathering }
  | _ => g

def endChild [DecidableEq ι] (g : Gather ι ε) (i : ι) (o : TaskEnd ε) : Gather ι ε :=
  if g.live i then
    { g with children := Function.update g.children i { g.children i with outcome := some o } }
  else g

/-- The code of child `i` swallows the CancelledError. -/
def dropRequest [DecidableEq ι] (g : Gather ι ε) (i : ι) : Gather ι ε :=
  { g with
    children := Function.update g.children i { g.children i with cancelRequested := false } }

def cancelAll (g : Gather ι ε) : Gather ι ε :=
  { g with children := fun i => { g.children i with cancelRequested := true } }

/-- What the done callback of a child that ended with `o` makes the result. -/
def heard [Fintype ι] (g : Gather ι ε) (noticed : ι → Bool) (o : TaskEnd ε) : Option (TaskEnd ε) :=
  match o with
  | .returned =>
      if ∀ j, noticed j = true then some (if g.gatherCancelled then .cancelled else .returned)
      else none
  | .raised e => some (.raised e)
  | .cancelled => some .cancelled

/-- The done callback of child `i` in the first `gather`. -/
def notice [Fintype ι] [DecidableEq ι] (g : Gather ι ε) (i : ι) : Gather ι ε :=
  match g.outcome i with
  | none => g
  | some o =>
      if g.noticed i then g
      else
        let noticed := Function.update g.noticed i true
        { g with noticed, result := g.result.or (g.heard noticed o) }

/-- `cancel()` on the parent. -/
def cancel [Fintype ι] (g : Gather ι ε) : Gather ι ε :=
  match g.stage with
  | .created => { g with mustCancel := true, cancelled := true }
  | .gathering =>
      if g.result.isNone ∧ ∃ i, (g.outcome i).isNone then
        { g.cancelAll with gatherCancelled := true, cancelled := true }
      else { g with mustCancel := true, cancelled := true }
  -- whether the second `gather` takes the request or not, it ends in a CancelledError
  | .cleaning _ => { g.cancelAll with mustCancel := true, cancelled := true }
  | .ended _ | .skipped => g

/-- The parent is resumed: with the result of the first `gather`, or when the second has
    seen all children end. -/
def resume [Fintype ι] (g : Gather ι ε) : Gather ι ε :=
  match g.stage with
  | .gathering =>
      match g.result with
      | none => g
      | some o =>
          if g.mustCancel then
            { g.cancelAll with stage := .cleaning .cancelled, mustCancel := false }
          else
            match o with
            | .returned => { g with stage := .ended .returned }
            | o => { g.cancelAll with stage := .cleaning o }
  | .cleaning failure =>
      if ∀ i, (g.outcome i).isSome then
        { g with stage := .ended (if g.mustCancel then .cancelled else failure) }
      else g
  | .created | .ended _ | .skipped => g

/-! ## What the parent ends with -/

/-- What accounts for an end of the parent. -/
def Cause (g : Gather ι ε) : TaskEnd ε → Prop
  | .returned => ∀ i, g.outcome i = some .returned
  | .raised e => ∃ i, g.outcome i = some (.raised e)
  | .cancelled => g.cancelled = true

/-- The first `gather` is not over. -/
def waits (g : Gather ι ε) : Bool :=
  match g.stage with
  | .created | .gathering => true
  | .cleaning _ | .ended _ | .skipped => false

/-- The invariant of the parent and its children. -/
structure Sound (g : Gather ι ε) : Prop where
  noticed : ∀ i, g.noticed i = true → (g.outcome i).isSome
  /-- As long as there is no result, only children that returned were noticed. -/
  unheard : g.result = none → ∀ i, g.noticed i = true → g.outcome i = some .returned
  result : ∀ o, g.result = some o → g.Cause o
  failure : ∀ o, g.stage = .cleaning o → g.Cause o ∧ o ≠ .returned
  ended : ∀ o, g.stage = .ended o → g.Cause o ∧ ∀ i, (g.outcome i).isSome
  /-- Nobody but the parent cancels a child. -/
  asked : g.waits = true → ∀ i, (g.asked i = true ∨ g.outcome i = some .cancelled) →
    g.cancelled = true
  cancelled : g.mustCancel = true ∨ g.gatherCancelled = true → g.cancelled = true
  /-- The parent goes on with a result only. -/
  early : g.result = none → g.waits = true ∨ g.stage = .skipped
  unborn : g.stage = .created ∨ g.stage = .skipped → ∀ i, g.outcome i = none

variable {g : Gather ι ε}

theorem sound_new : ({} : Gather ι ε).Sound where
  noticed := nofun
  unheard := nofun
  result := nofun
  failure := nofun
  ended := nofun
  asked := by
    rintro - i (h | h)
    · cases h
    · cases h
  cancelled := by
    rintro (h | h)
    · cases h
    · cases h
  early := fun _ => Or.inl rfl
  unborn := fun _ _ => rfl

/-- A cause stays one while the children that have ended stay as they are. -/
theorem Cause.mono {g' : Gather ι ε} {o : TaskEnd ε} (h : g.Cause o)
    (hout : ∀ i o, g.outcome i = some o → g'.outcome i = some o)
    (hcancelled : g.cancelled = true → g'.cancelled = true) : g'.Cause o := by
  cases o with
  | returned => exact fun i => hout i _ (h i)
  | raised e =>
    obtain ⟨i, hi⟩ := h
    exact ⟨i, hout i _ hi⟩
  | cancelled => exact hcancelled h

theorem outcome_of_live {i : ι} (h : g.live i = true) : g.outcome i = none := by
  unfold live at h
  split at h
  · cases h
  · cases h
  all_goals exact Option.isNone_iff_eq_none.1 h

/-- Children may end, and requests may change; the parent and what it has heard do not. -/
theorem Sound.grow (h : g.Sound) {g' : Gather ι ε} (hstage : g'.stage = g.stage)
    (hout : ∀ i o, g.outcome i = some o → g'.outcome i = some o) (hnoticed : g'.noticed = g.noticed)
    (hresult : g'.result = g.result) (hcancelled : g.cancelled = true → g'.cancelled = true)
    (hasked : g.waits = true → ∀ i, (g'.asked i = true ∨ g'.outcome i = some .cancelled) →
      (g.asked i = true ∨ g.outcome i = some .cancelled) ∨ g'.cancelled = true)
    (hflags : g'.mustCancel = true ∨ g'.gatherCancelled = true → g'.cancelled = true)
    (hunborn : g.stage = .created ∨ g.stage = .skipped → ∀ i, g'.outcome i = g.outcome i) :
    g'.Sound := by
  have hcause : ∀ o, g.Cause o → g'.Cause o := fun o hc => hc.mono hout hcancelled
  have hsome : ∀ i, (g.outcome i).isSome → (g'.outcome i).isSome := by
    intro i hi
    obtain ⟨o, ho⟩ := Option.isSome_iff_exists.1 hi
    rw [hout i o ho]
    rfl
  refine ⟨fun i hi => ?_, fun hr i hi => ?_, fun o hr => ?_, fun o hs => ?_, fun o hs => ?_,
    fun hw i hi => ?_, hflags, fun hr => ?_, fun hs i => ?_⟩
  · rw [hnoticed] at hi
    exact hsome i (h.noticed i hi)
  · rw [hresult] at hr
    rw [hnoticed] at hi
    exact hout i _ (h.unheard hr i hi)
  · rw [hresult] at hr
    exact hcause o (h.result o hr)
  · rw [hstage] at hs
    exact ⟨hcause o (h.failure o hs).1, (h.failure o hs).2⟩
  · rw [hstage] at hs
    exact ⟨hcause o (h.ended o hs).1, fun i => hsome i ((h.ended o hs).2 i)⟩
  · rw [waits, hstage, ← waits] at hw
    rcases hasked hw i hi with hold | hc
    · exact hcancelled (h.asked hw i hold)
    · exact hc
  · rw [hresult] at hr
    rw [waits, hstage, ← waits]
    exact h.early hr
  · rw [hstage] at hs
    rw [hunborn hs]
    exact h.unborn hs i

/-- A change of the requests alone. -/
theorem Sound.request (h : g.Sound) {g' : Gather ι ε} (hstage : g'.stage = g.stage)
    (hout : ∀ i, g'.outcome i = g.outcome i) (hnoticed : g'.noticed = g.noticed)
    (hresult : g'.result = g.result) (hcancelled : g.cancelled = true → g'.cancelled = true)
    (hasked : g.waits = true → ∀ i, g'.asked i = true → g.asked i = true ∨ g'.cancelled = true)
    (hflags : g'.mustCancel = true ∨ g'.gatherCancelled = true → g'.cancelled = true) :
    g'.Sound := by
  refine h.grow hstage (fun i o hi => (hout i).trans hi) hnoticed hresult hcancelled
    (fun hw i hi => ?_) hflags fun _ => hout
  rcases hi with hi | hi
  · exact (hasked hw i hi).imp_left Or.inl
  · rw [hout] at hi
    exact Or.inl (Or.inr hi)

/-! ### The children -/

section Children

variable [DecidableEq ι]

theorem outcome_endChild (g : Gather ι ε) (i : ι) (o : TaskEnd ε) (j : ι) :
    (g.endChild i o).outcome j = if g.live i = true ∧ j = i then some o else g.outcome j := by
  unfold endChild
  by_cases hlive : g.live i = true
  · rw [if_pos hlive]
    by_cases hj : j = i
    · simp [outcome, hlive, hj]
    · simp [outcome, hj]
  · rw [if_neg hlive, if_neg fun h => hlive h.1]

theorem asked_endChild (g : Gather ι ε) (i : ι) (o : TaskEnd ε) (j : ι) :
    (g.endChild i o).asked j = g.asked j := by
  unfold endChild
  split
  · by_cases hj : j = i
    · simp [asked, hj]
    · simp [asked, hj]
  · rfl

/-- Nothing but the record of the child changes. -/
theorem endChild_frame (g : Gather ι ε) (i : ι) (o : TaskEnd ε) :
    (g.endChild i o).stage = g.stage ∧ (g.endChild i o).noticed = g.noticed ∧
      (g.endChild i o).result = g.result ∧ (g.endChild i o).gatherCancelled = g.gatherCancelled ∧
      (g.endChild i o).mustCancel = g.mustCancel ∧ (g.endChild i o).cancelled = g.cancelled := by
  unfold endChild
  split
  · exact ⟨rfl, rfl, rfl, rfl, rfl, rfl⟩
  · exact ⟨rfl, rfl, rfl, rfl, rfl, rfl⟩

/-- A child that has ended stays as it is. -/
theorem outcome_endChild_of_some (i : ι) (o : TaskEnd ε) {j : ι} {o' : TaskEnd ε}
    (h : g.outcome j = some o') : (g.endChild i o).outcome j = some o' := by
  rw [outcome_endChild]
  split
  · next hi =>
    obtain ⟨hlive, rfl⟩ := hi
    rw [outcome_of_live hlive] at h
    cases h
  · exact h

/-- A child ends; with a CancelledError only when it was cancelled. -/
theorem Sound.endChild (h : g.Sound) {i : ι} {o : TaskEnd ε}
    (ho : o = .cancelled → g.asked i = true) : (g.endChild i o).Sound := by
  obtain ⟨hstage, hnoticed, hresult, hgather, hmust, hcancelled⟩ := endChild_frame g i o
  refine h.grow hstage (fun j _ hj => outcome_endChild_of_some i o hj) hnoticed hresult
    (fun hc => hcancelled.trans hc) (fun _ j hj => ?_) (fun hc => ?_) fun hs j => ?_
  · rw [asked_endChild, outcome_endChild] at hj
    split at hj
    · next hi =>
      obtain ⟨-, rfl⟩ := hi
      rcases hj with hj | hj
      · exact Or.inl (Or.inl hj)
      · exact Or.inl (Or.inl (ho (Option.some.inj hj)))
    · exact Or.inl hj
  · rw [hmust, hgather] at hc
    exact hcancelled.trans (h.cancelled hc)
  · have hlive : g.live i = false := by
      unfold live
      rcases hs with hs | hs
      · rw [hs]
      · rw [hs]
    rw [outcome_endChild, if_neg fun hi => Bool.eq_false_iff.1 hlive hi.1]

theorem outcome_dropRequest (g : Gather ι ε) (i j : ι) :
    (g.dropRequest i).outcome j = g.outcome j := by
  by_cases hj : j = i
  · simp [outcome, dropRequest, hj]
  · simp [outcome, dropRequest, hj]

theorem asked_of_dropRequest {i j : ι} (h : (g.dropRequest i).asked j = true) :
    g.asked j = true := by
  by_cases hj : j = i
  · simp [asked, dropRequest, hj] at h
  · simpa [asked, dropRequest, hj] using h

theorem Sound.dropRequest (h : g.Sound) (i : ι) : (g.dropRequest i).Sound :=
  h.request rfl (outcome_dropRequest g i) rfl rfl id
    (fun _ _ hj => Or.inl (asked_of_dropRequest hj))
    h.cancelled

end Children

/-! ### The parent -/

theorem hasEnded_congr {g' : Gather ι ε} (h : g'.stage = g.stage) : g'.hasEnded = g.hasEnded := by
  rw [hasEnded, hasEnded, h]

theorem hasEnded_iff : g.hasEnded = true ↔ ∃ o, g.stage = .ended o := by
  unfold hasEnded
  constructor
  · intro h
    split at h
    · next o hs => exact ⟨o, hs⟩
    all_goals cases h
  · rintro ⟨o, hs⟩
    rw [hs]

theorem hasEnded_start (g : Gather ι ε) : g.start.hasEnded = g.hasEnded := by
  unfold Gather.start
  split
  · next hs =>
    unfold hasEnded
    rw [hs]
    cases g.mustCancel with
    | true => rfl
    | false => rfl
  · rfl

theorem stage_cancel [Fintype ι] (g : Gather ι ε) : g.cancel.stage = g.stage := by
  unfold Gather.cancel
  split
  · rfl
  · split
    · rfl
    · rfl
  · rfl
  · rfl
  · rfl

theorem resume_of_hasEnded [Fintype ι] (h : g.hasEnded = true) : g.resume = g := by
  obtain ⟨o, hs⟩ := hasEnded_iff.1 h
  rw [Gather.resume, hs]

/-- What the parent asked of a child it does not take back. -/
theorem asked_cancel [Fintype ι] {i : ι} (h : g.asked i = true) : g.cancel.asked i = true := by
  unfold Gather.cancel
  split
  · exact h
  · split
    · rfl
    · exact h
  · rfl
  · exact h
  · exact h

/-- A parent that begins to clean up cancels all children. -/
theorem asked_resume [Fintype ι] {failure : TaskEnd ε} (h : g.resume.stage = .cleaning failure) :
    g.resume = g ∨ ∀ i, g.resume.asked i = true := by
  cases hs : g.stage with
  | gathering =>
    cases hr : g.result with
    | none =>
      left
      rw [Gather.resume, hs]
      dsimp only
      rw [hr]
    | some o =>
      right
      rw [Gather.resume, hs] at h ⊢
      dsimp only at h ⊢
      rw [hr] at h ⊢
      dsimp only at h ⊢
      by_cases hmust : g.mustCancel = true
      · rw [if_pos hmust]
        exact fun _ => rfl
      · rw [if_neg hmust] at h ⊢
        cases o with
        | returned => cases h
        | raised e => exact fun _ => rfl
        | cancelled => exact fun _ => rfl
  | cleaning _ =>
    left
    rw [Gather.resume, hs] at h ⊢
    dsimp only at h ⊢
    by_cases hall : ∀ i, (g.outcome i).isSome
    · rw [if_pos hall] at h
      cases h
    · rw [if_neg hall]
  | _ =>
    left
    rw [Gather.resume, hs]

theorem live_of_gathering {i : ι} (hs : g.stage = .gathering) (h : g.outcome i = none) :
    g.live i = true := by
  rw [live, hs]
  exact Option.isNone_iff_eq_none.2 h

theorem live_of_cleaning {i : ι} {failure : TaskEnd ε} (hs : g.stage = .cleaning failure)
    (h : g.outcome i = none) : g.live i = true := by
  rw [live, hs]
  exact Option.isNone_iff_eq_none.2 h

theorem outcome_start (g : Gather ι ε) (i : ι) : g.start.outcome i = g.outcome i := by
  unfold Gather.start
  split
  · rfl
  · rfl

theorem outcome_cancel [Fintype ι] (g : Gather ι ε) (i : ι) : g.cancel.outcome i = g.outcome i := by
  unfold Gather.cancel
  split
  · rfl
  · split
    · rfl
    · rfl
  · rfl
  · rfl
  · rfl

theorem outcome_resume [Fintype ι] (g : Gather ι ε) (i : ι) : g.resume.outcome i = g.outcome i := by
  unfold Gather.resume
  split
  · split
    · rfl
    · split
      · rfl
      · split
        · rfl
        · rfl
  · split
    · rfl
    · rfl
  · rfl
  · rfl
  · rfl

theorem Sound.start (h : g.Sound) : g.start.Sound := by
  unfold Gather.start
  split
  · next hstage =>
    have hw : g.waits = true := by rw [waits, hstage]
    refine ⟨h.noticed, h.unheard, h.result, ?_, ?_, fun _ => h.asked hw, h.cancelled, fun _ => ?_,
      fun _ => h.unborn (Or.inl hstage)⟩
    · intro o ho
      dsimp only at ho
      split at ho
      · cases ho
      · cases ho
    · intro o ho
      dsimp only at ho
      split at ho
      · cases ho
      · cases ho
    · by_cases hmust : g.mustCancel = true
      · exact Or.inr (if_pos hmust)
      · left
        rw [waits]
        dsimp only
        rw [if_neg hmust]
  · exact h

/-- The parent begins to clean up after the failure `o`. -/
theorem Sound.clean (h : g.Sound) {o : TaskEnd ε} (hcause : g.Cause o) (hne : o ≠ .returned)
    (hresult : g.result.isSome) {mustCancel : Bool}
    (hmust : mustCancel = true → g.mustCancel = true) :
    { g.cancelAll with stage := .cleaning o, mustCancel }.Sound := by
  refine ⟨h.noticed, h.unheard, h.result, ?_, nofun, nofun, ?_, fun hr => ?_, ?_⟩
  · rintro o' ho'
    cases ho'
    exact ⟨hcause, hne⟩
  · rintro (hm | hg)
    · exact h.cancelled (Or.inl (hmust hm))
    · exact h.cancelled (Or.inr hg)
  · have hnone : g.result = none := hr
    rw [hnone] at hresult
    cases hresult
  · rintro (hs | hs)
    · cases hs
    · cases hs

/-- The parent ends with `o`. -/
theorem Sound.finish (h : g.Sound) {o : TaskEnd ε} (hcause : g.Cause o)
    (hall : ∀ i, (g.outcome i).isSome) (hresult : g.result.isSome) :
    { g with stage := .ended o }.Sound := by
  refine ⟨h.noticed, h.unheard, h.result, nofun, ?_, nofun, h.cancelled, fun hr => ?_, ?_⟩
  · rintro o' ho'
    cases ho'
    exact ⟨hcause, hall⟩
  · have hnone : g.result = none := hr
    rw [hnone] at hresult
    cases hresult
  · rintro (hs | hs)
    · cases hs
    · cases hs

section Parent

variable [Fintype ι]

theorem Sound.cancel (h : g.Sound) : g.cancel.Sound := by
  unfold Gather.cancel
  split
  · exact h.request rfl (fun _ => rfl) rfl rfl (fun _ => rfl) (fun _ _ hi => Or.inl hi) fun _ => rfl
  · split
    · exact h.request rfl (fun _ => rfl) rfl rfl (fun _ => rfl) (fun _ _ _ => Or.inr rfl)
        fun _ => rfl
    · exact h.request rfl (fun _ => rfl) rfl rfl (fun _ => rfl) (fun _ _ hi => Or.inl hi)
        fun _ => rfl
  · exact h.request rfl (fun _ => rfl) rfl rfl (fun _ => rfl) (fun _ _ _ => Or.inr rfl) fun _ => rfl
  · exact h
  · exact h

theorem Sound.resume (h : g.Sound) : g.resume.Sound := by
  unfold Gather.resume
  split
  · split
    · exact h
    · next o hr =>
      have hsome : g.result.isSome := by
        rw [hr]
        rfl
      split
      · next hmust =>
        exact h.clean (o := .cancelled) (h.cancelled (Or.inl hmust)) nofun hsome nofun
      · split
        · have hall : ∀ i, g.outcome i = some .returned := h.result _ hr
          refine h.finish (o := .returned) hall (fun i => ?_) hsome
          rw [hall i]
          rfl
        · next hne => exact h.clean (h.result _ hr) hne hsome id
  · next failure hs =>
    split
    · next hall =>
      refine h.finish ?_ hall ?_
      · split
        · next hmust => exact h.cancelled (Or.inl hmust)
        · exact (h.failure _ hs).1
      · rw [← Option.not_isNone, Bool.not_eq_true', Bool.eq_false_iff]
        intro hnone
        rcases h.early (Option.isNone_iff_eq_none.1 hnone) with hw | hskip
        · rw [waits, hs] at hw
          cases hw
        · rw [hs] at hskip
          cases hskip
    · exact h
  · exact h
  · exact h
  · exact h

theorem stage_notice [DecidableEq ι] (g : Gather ι ε) (i : ι) : (g.notice i).stage = g.stage := by
  unfold Gather.notice
  split
  · rfl
  · split
    · rfl
    · rfl

theorem asked_notice [DecidableEq ι] (g : Gather ι ε) (i j : ι) :
    (g.notice i).asked j = g.asked j := by
  unfold Gather.notice
  split
  · rfl
  · split
    · rfl
    · rfl

theorem outcome_notice [DecidableEq ι] (g : Gather ι ε) (i j : ι) :
    (g.notice i).outcome j = g.outcome j := by
  unfold Gather.notice
  split
  · rfl
  · split
    · rfl
    · rfl

theorem heard_eq_none {noticed : ι → Bool} {o : TaskEnd ε} (h : g.heard noticed o = none) :
    o = .returned := by
  unfold heard at h
  split at h
  · rfl
  · cases h
  · cases h

/-- What a done callback sets has its cause. -/
theorem Sound.cause_of_heard (h : g.Sound) {i : ι} {o o' : TaskEnd ε} {noticed : ι → Bool}
    (ho : g.outcome i = some o) (hnoticed : ∀ j, noticed j = true → j = i ∨ g.noticed j = true)
    (hr : g.result = none) (hheard : g.heard noticed o = some o') : g.Cause o' := by
  unfold heard at hheard
  split at hheard
  · split at hheard
    · next hall =>
      cases hheard
      split
      · next hgather => exact h.cancelled (Or.inr hgather)
      · intro j
        rcases hnoticed j (hall j) with rfl | hj
        · exact ho
        · exact h.unheard hr j hj
    · cases hheard
  · cases hheard
    exact ⟨i, ho⟩
  · cases hheard
    have hw : g.waits = true := by
      refine (h.early hr).resolve_right fun hskip => ?_
      rw [h.unborn (Or.inr hskip) i] at ho
      cases ho
    exact h.asked hw i (Or.inr ho)

variable [DecidableEq ι]

theorem notice_cases (g : Gather ι ε) (i : ι) :
    g.notice i = g ∨ ∃ o, g.outcome i = some o ∧ g.noticed i = false ∧
      g.notice i = { g with
        noticed := Function.update g.noticed i true
        result := g.result.or (g.heard (Function.update g.noticed i true) o) } := by
  unfold Gather.notice
  split
  · exact Or.inl rfl
  · next o ho =>
    split
    · exact Or.inl rfl
    · next hnew => exact Or.inr ⟨o, ho, Bool.eq_false_iff.2 hnew, rfl⟩

theorem Sound.notice (h : g.Sound) (i : ι) : (g.notice i).Sound := by
  rcases notice_cases g i with hs | ⟨o, ho, hnew, hs⟩
  · rw [hs]
    exact h
  · rw [hs]
    have hnoticed : ∀ j, Function.update g.noticed i true j = true →
        j = i ∨ g.noticed j = true := by
      intro j hj
      by_cases hji : j = i
      · exact Or.inl hji
      · rw [Function.update_of_ne hji] at hj
        exact Or.inr hj
    refine ⟨fun j hj => ?_, fun hr j hj => ?_, fun o' hr => ?_, h.failure, h.ended, h.asked,
      h.cancelled, fun hr => h.early (Option.or_eq_none_iff.1 hr).1, h.unborn⟩
    · rcases hnoticed j hj with rfl | hj
      · exact Option.isSome_iff_exists.2 ⟨o, ho⟩
      · exact h.noticed j hj
    · obtain ⟨hr, hheard⟩ := Option.or_eq_none_iff.1 hr
      rcases hnoticed j hj with rfl | hj
      · exact ho.trans (congrArg some (heard_eq_none hheard))
      · exact h.unheard hr j hj
    · rcases Option.or_eq_some_iff.1 hr with hr | ⟨hr, hheard⟩
      · exact h.result o' hr
      · exact h.cause_of_heard ho hnoticed hr hheard

end Parent

end Gather

/-! ## Steps that are left -/

def GatherStage.left {ε : Type} : GatherStage ε → Nat
  | .created => 3
  | .gathering => 2
  | .cleaning _ => 1
  | .ended _ | .skipped => 0

namespace Gather

variable {ι ε : Type} [Fintype ι] {g : Gather ι ε}

/-- The steps of the parent and the done callbacks that are still to come. -/
def left (g : Gather ι ε) : Nat :=
  g.stage.left + (Finset.univ.filter fun i => g.noticed i = false).card

theorem left_start (g : Gather ι ε) : g.start = g ∨ g.start.left < g.left := by
  unfold start
  split
  · next hs =>
    right
    rw [left, left, hs]
    dsimp only
    split
    · simp only [GatherStage.left]
      omega
    · simp only [GatherStage.left]
      omega
  · exact Or.inl rfl

theorem left_cancel (g : Gather ι ε) : g.cancel.left = g.left := by
  unfold cancel
  split
  · rfl
  · split
    · rfl
    · rfl
  · rfl
  · rfl
  · rfl

theorem left_lt {g' : Gather ι ε} (hstage : g'.stage.left < g.stage.left)
    (hnoticed : g'.noticed = g.noticed) : g'.left < g.left := by
  rw [left, left, hnoticed]
  exact Nat.add_lt_add_right hstage _

/-- The parent goes on when the first `gather` has its result. -/
theorem left_resume_of_result (hs : g.stage = .gathering) (hr : g.result.isSome) :
    g.resume.left < g.left := by
  obtain ⟨o, ho⟩ := Option.isSome_iff_exists.1 hr
  have hcleaning : ∀ o : TaskEnd ε, (GatherStage.cleaning o).left < g.stage.left := by
    intro o
    rw [hs]
    exact Nat.lt_succ_self 1
  have hended : ∀ o : TaskEnd ε, (GatherStage.ended o).left < g.stage.left := by
    intro o
    rw [hs]
    exact Nat.succ_pos 1
  rw [resume, hs]
  dsimp only
  rw [ho]
  dsimp only
  split
  · exact left_lt (hcleaning _) rfl
  · split
    · exact left_lt (hended _) rfl
    · exact left_lt (hcleaning _) rfl

/-- It ends when all children have. -/
theorem left_resume_of_ended {failure : TaskEnd ε} (hs : g.stage = .cleaning failure)
    (hall : ∀ i, (g.outcome i).isSome) : g.resume.left < g.left := by
  rw [resume, hs]
  dsimp only
  rw [if_pos hall]
  refine left_lt ?_ rfl
  rw [hs]
  exact Nat.succ_pos 0

theorem left_resume (g : Gather ι ε) : g.resume = g ∨ g.resume.left < g.left := by
  cases hs : g.stage with
  | gathering =>
    cases hr : g.result with
    | none =>
      left
      rw [resume, hs]
      dsimp only
      rw [hr]
    | some o => exact Or.inr (left_resume_of_result hs (Option.isSome_iff_exists.2 ⟨o, hr⟩))
  | cleaning failure =>
    by_cases hall : ∀ i, (g.outcome i).isSome
    · exact Or.inr (left_resume_of_ended hs hall)
    · left
      rw [resume, hs]
      dsimp only
      rw [if_neg hall]
  | _ =>
    left
    rw [resume, hs]

variable [DecidableEq ι]

theorem left_endChild (g : Gather ι ε) (i : ι) (o : TaskEnd ε) :
    (g.endChild i o).left = g.left := by
  obtain ⟨hstage, hnoticed, -⟩ := endChild_frame g i o
  rw [left, left, hstage, hnoticed]

theorem left_notice_of_ended {i : ι} {o : TaskEnd ε} (ho : g.outcome i = some o)
    (hnew : g.noticed i = false) : (g.notice i).left < g.left := by
  rw [notice, ho]
  dsimp only
  rw [hnew, if_neg Bool.false_ne_true, left, left]
  refine Nat.add_lt_add_left (Finset.card_lt_card ?_) _
  refine Finset.ssubset_iff_subset_ne.2 ⟨fun j hj => ?_, fun heq => ?_⟩
  · have hj := (Finset.mem_filter.1 hj).2
    dsimp only at hj
    by_cases hji : j = i
    · rw [hji]
      exact Finset.mem_filter.2 ⟨Finset.mem_univ i, hnew⟩
    · rw [Function.update_of_ne hji] at hj
      exact Finset.mem_filter.2 ⟨Finset.mem_univ j, hj⟩
  · have hmem : i ∈ Finset.univ.filter fun j => g.noticed j = false :=
      Finset.mem_filter.2 ⟨Finset.mem_univ i, hnew⟩
    rw [← heq] at hmem
    have hfalse := (Finset.mem_filter.1 hmem).2
    dsimp only at hfalse
    rw [Function.update_self] at hfalse
    cases hfalse

theorem left_notice (g : Gather ι ε) (i : ι) : g.notice i = g ∨ (g.notice i).left < g.left := by
  rcases notice_cases g i with hs | ⟨o, ho, hnew, -⟩
  · exact Or.inl hs
  · exact Or.inr (left_notice_of_ended ho hnew)

/-- A failed child is heard of: its done callback has yet to run, or the parent can go on. -/
theorem Sound.hears (h : g.Sound) {i : ι} {o : TaskEnd ε} (hs : g.stage = .gathering)
    (ho : g.outcome i = some o) (hne : o ≠ .returned) :
    (g.notice i).left < g.left ∨ g.resume.left < g.left := by
  cases hnew : g.noticed i with
  | false => exact Or.inl (left_notice_of_ended ho hnew)
  | true =>
    refine Or.inr (left_resume_of_result hs ?_)
    rw [← Option.not_isNone, Bool.not_eq_true', Bool.eq_false_iff]
    intro hnone
    have hreturned := h.unheard (Option.isNone_iff_eq_none.1 hnone) i hnew
    rw [ho] at hreturned
    exact hne (Option.some.inj hreturned)

end Gather

end Zmqtt
