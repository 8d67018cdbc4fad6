/-
  The response observers of the current connection. `add_response_observer` and
  `remove_response_observer` of one topic hold its guard one after the other, so what counts is
  the order in which they came to it: a removal that is asked for before the topic has a new
  interest runs before the call that adds the topic again.

  The lemmas are about the components of the dispatcher that matter: the ready task of each
  topic in `_topics`, the tasks of `add_response_observer`, the set of observers, the queue of
  the guards and the removals in it.
-/
import Zmqtt.Requests.Capacity

namespace Zmqtt

/-- The task has not finished. -/
def AddStage.running : AddStage → Bool
  | .created | .queued | .exchanging => true
  | .ok | .failed => false

/-- The task has found its topic in the set of observers, or put it there. -/
def AddStage.placed : AddStage → Bool
  | .exchanging | .ok => true
  | .created | .queued | .failed => false

/-- A removal of the topic waits for its guard. -/
def Leaving (queue : List GuardWaiter) (removes : Nat → Option (Nat × String)) (c : Nat)
    (t : String) : Prop :=
  ∃ k, .remove k ∈ queue ∧ removes k = some (c, t)

/-- The observers of the current connection belong to the ready tasks of the interests, or are
    about to be removed. -/
structure Observes (protocol : Option Nat) (readyOf : String → Option Nat)
    (adds : List ObserverAdd) (observers : List (Nat × String)) (queue : List GuardWaiter)
    (removes : Nat → Option (Nat × String)) : Prop where
  nodup : queue.Nodup
  queued : ∀ a, .add a ∈ queue → ∃ add, adds[a]? = some add ∧ add.stage = .queued
  removing : ∀ k, .remove k ∈ queue → removes k ≠ none
  ready : ∀ t a, readyOf t = some a → ∃ add, adds[a]? = some add ∧
    protocol = some add.connection ∧ add.topic = t
  owned : ∀ (a : Nat) (add : ObserverAdd), adds[a]? = some add → protocol = some add.connection →
    add.stage.running = true → readyOf add.topic = some a
  observed : ∀ c t, protocol = some c → (c, t) ∈ observers → Leaving queue removes c t ∨
    ∃ a add, readyOf t = some a ∧ adds[a]? = some add ∧ add.stage.placed = true
  held : ∀ (c : Nat) (t : String) (a : Nat) (add : ObserverAdd), protocol = some c →
    readyOf t = some a → adds[a]? = some add → add.stage.placed = true →
    (c, t) ∈ observers ∧ ¬ Leaving queue removes c t
  order : queue.Pairwise fun w w' => ∀ (a k : Nat) (add : ObserverAdd), w = .add a →
    w' = .remove k → adds[a]? = some add → protocol = some add.connection →
    removes k ≠ some (add.connection, add.topic)

/-- Connections have increasing numbers. -/
structure Older (connections : Nat) (protocol : Option Nat) (adds : List ObserverAdd)
    (observers : List (Nat × String)) (removes : Nat → Option (Nat × String)) : Prop where
  protocol : ∀ c, protocol = some c → c < connections
  adds : ∀ add ∈ adds, add.connection < connections
  observers : ∀ guard ∈ observers, guard.1 < connections
  removes : ∀ k guard, removes k = some guard → guard.1 < connections

namespace Observes

variable {protocol : Option Nat} {readyOf : String → Option Nat} {adds : List ObserverAdd}
  {observers : List (Nat × String)} {queue : List GuardWaiter}
  {removes : Nat → Option (Nat × String)} {c a k n : Nat} {t : String} {add : ObserverAdd}

/-! ## Interests -/

/-- An interest is deleted whose ready task has failed, or that has none. -/
theorem delete (h : Observes protocol readyOf adds observers queue removes)
    (hdone : ∀ (a : Nat) (add : ObserverAdd), readyOf t = some a → adds[a]? = some add →
      add.stage = .failed) :
    Observes protocol (Function.update readyOf t none) adds observers queue removes := by
  have hold {t' : String} {a : Nat} (ht : Function.update readyOf t none t' = some a) :
      readyOf t' = some a := by
    rw [Function.update_apply] at ht
    split at ht
    · cases ht
    · exact ht
  have hkeep {t' : String} (a : Nat) (add : ObserverAdd) (hr : readyOf t' = some a)
      (ha : adds[a]? = some add) (hne : add.stage ≠ .failed) :
      Function.update readyOf t none t' = some a := by
    rw [Function.update_apply]
    split
    · next he =>
      rw [he] at hr
      exact absurd (hdone a add hr ha) hne
    · exact hr
  refine ⟨h.nodup, h.queued, h.removing, fun t' a hr => h.ready t' a (hold hr),
    fun a add ha hp hrun => ?_, fun c' t' hp hin => ?_,
    fun c' t' a add hp hr => h.held c' t' a add hp (hold hr), h.order⟩
  · refine hkeep a add (h.owned a add ha hp hrun) ha ?_
    intro hf
    rw [hf] at hrun
    cases hrun
  · rcases h.observed c' t' hp hin with hleave | ⟨a, add, hr, ha, hplaced⟩
    · exact Or.inl hleave
    · refine Or.inr ⟨a, add, hkeep a add hr ha ?_, ha, hplaced⟩
      intro hf
      rw [hf] at hplaced
      cases hplaced

/-- An interest is deleted and its topic is to be removed; its ready task has finished. -/
theorem deleteRemove (h : Observes protocol readyOf adds observers queue removes)
    (hdone : ∀ (a : Nat) (add : ObserverAdd), readyOf t = some a → adds[a]? = some add →
      add.stage.running = false) (hp : protocol = some c) (hk : removes k = none) :
    Observes protocol (Function.update readyOf t none) adds observers (queue ++ [.remove k])
      (Function.update removes k (some (c, t))) := by
  have hnew : .remove k ∉ queue := fun hin => h.removing k hin hk
  have hother {k' : Nat} (hin : .remove k' ∈ queue) :
      Function.update removes k (some (c, t)) k' = removes k' := by
    refine Function.update_of_ne ?_ _ _
    rintro rfl
    exact hnew hin
  have hold {t' : String} {a : Nat} (ht : Function.update readyOf t none t' = some a) :
      t' ≠ t ∧ readyOf t' = some a := by
    rw [Function.update_apply] at ht
    split at ht
    · cases ht
    · next hne => exact ⟨hne, ht⟩
  have hleaving {c' : Nat} {t' : String} (hleave : Leaving queue removes c' t') :
      Leaving (queue ++ [.remove k]) (Function.update removes k (some (c, t))) c' t' := by
    obtain ⟨k', hin, hrem⟩ := hleave
    exact ⟨k', List.mem_append_left _ hin, (hother hin).trans hrem⟩
  refine ⟨?_, fun a hin => ?_, fun k' hin => ?_, fun t' a hr => h.ready t' a (hold hr).2,
    fun a add ha hp' hrun => ?_, fun c' t' hp' hin => ?_, fun c' t' a add hp' hr ha hplaced => ?_,
    ?_⟩
  · refine List.nodup_append.2 ⟨h.nodup, List.nodup_singleton _, fun w hw w' hw' => ?_⟩
    rw [List.mem_singleton.1 hw']
    rintro rfl
    exact hnew hw
  · refine h.queued a ((List.mem_append.1 hin).resolve_right fun he => ?_)
    cases List.mem_singleton.1 he
  · rcases List.mem_append.1 hin with hin | hin
    · rw [hother hin]
      exact h.removing k' hin
    · cases List.mem_singleton.1 hin
      rw [Function.update_self]
      exact Option.some_ne_none _
  · have hr := h.owned a add ha hp' hrun
    rw [Function.update_apply]
    split
    · next he =>
      rw [he] at hr
      rw [hdone a add hr ha] at hrun
      cases hrun
    · exact hr
  · obtain rfl : c = c' := Option.some.inj (hp.symm.trans hp')
    by_cases ht : t' = t
    · subst ht
      exact Or.inl ⟨k, List.mem_append_right _ (List.mem_singleton_self _), Function.update_self ..⟩
    · rcases h.observed c t' hp hin with hleave | ⟨a, add, hr, hrest⟩
      · exact Or.inl (hleaving hleave)
      · exact Or.inr ⟨a, add, by rw [Function.update_of_ne ht]; exact hr, hrest⟩
  · obtain ⟨hne, hr⟩ := hold hr
    obtain ⟨hin, hno⟩ := h.held c' t' a add hp' hr ha hplaced
    refine ⟨hin, ?_⟩
    rintro ⟨k', hin', hrem⟩
    rcases List.mem_append.1 hin' with hin' | hin'
    · exact hno ⟨k', hin', (hother hin').symm.trans hrem⟩
    · cases List.mem_singleton.1 hin'
      rw [Function.update_self] at hrem
      cases hrem
      exact hne rfl
  · refine List.pairwise_append.2 ⟨h.order.imp_of_mem fun {w w'} hw hw' hrel a k' add he he' ha hp' => ?_,
      List.pairwise_singleton _ _, fun w hw w' hw' a k' add he he' ha hp' => ?_⟩
    · rw [hother (he' ▸ hw')]
      exact hrel a k' add he he' ha hp'
    · -- a queued task of this topic would be the ready task, which has finished
      rw [List.mem_singleton.1 hw'] at he'
      cases he'
      rw [Function.update_self]
      intro heq
      obtain ⟨add', ha', hstage⟩ := h.queued a (he ▸ hw)
      obtain rfl : add = add' := Option.some.inj (ha.symm.trans ha')
      have hrun : add.stage.running = true := by rw [hstage]; rfl
      have hr := h.owned a add ha hp' hrun
      rw [← (Prod.mk.inj (Option.some.inj heq)).2] at hr
      rw [hdone a add hr ha] at hrun
      cases hrun

/-- A ready task is created for a topic that has none. -/
theorem newAdd (h : Observes protocol readyOf adds observers queue removes)
    (hp : protocol = some c) (hnone : readyOf t = none) :
    Observes protocol (Function.update readyOf t (some adds.length))
      (adds ++ [{ connection := c, topic := t }]) observers queue removes := by
  have hleft {a : Nat} {add : ObserverAdd} (ha : adds[a]? = some add) :
      (adds ++ [{ connection := c, topic := t }])[a]? = some add :=
    (List.getElem?_append_left (List.getElem?_eq_some_iff.1 ha).1).trans ha
  have hcases {a : Nat} {add : ObserverAdd}
      (ha : (adds ++ [{ connection := c, topic := t }])[a]? = some add) :
      adds[a]? = some add ∨ a = adds.length ∧ add = { connection := c, topic := t } := by
    rw [List.getElem?_append] at ha
    split at ha
    · exact Or.inl ha
    · have hlt := (List.getElem?_eq_some_iff.1 ha).1
      rw [List.length_singleton] at hlt
      exact Or.inr ⟨by omega, List.mem_singleton.1 (List.mem_of_getElem? ha)⟩
  have hkeep {t' : String} {a : Nat} (hr : readyOf t' = some a) :
      Function.update readyOf t (some adds.length) t' = some a := by
    rw [Function.update_of_ne]
    · exact hr
    · rintro rfl
      rw [hnone] at hr
      cases hr
  refine ⟨h.nodup, fun a hin => ?_, h.removing, fun t' a hr => ?_, fun a add ha hp' hrun => ?_,
    fun c' t' hp' hin => ?_, fun c' t' a add hp' hr ha hplaced => ?_,
    h.order.imp_of_mem fun {w w'} hw _ hrel a k add he he' ha hp' => ?_⟩
  · obtain ⟨add, ha, hstage⟩ := h.queued a hin
    exact ⟨add, hleft ha, hstage⟩
  · rw [Function.update_apply] at hr
    split at hr
    · next he =>
      cases hr
      exact ⟨_, List.getElem?_concat_length .., hp, he.symm⟩
    · obtain ⟨add, ha, hrest⟩ := h.ready t' a hr
      exact ⟨add, hleft ha, hrest⟩
  · rcases hcases ha with ha | ⟨rfl, rfl⟩
    · exact hkeep (h.owned a add ha hp' hrun)
    · exact Function.update_self ..
  · rcases h.observed c' t' hp' hin with hleave | ⟨a, add, hr, ha, hplaced⟩
    · exact Or.inl hleave
    · exact Or.inr ⟨a, add, hkeep hr, hleft ha, hplaced⟩
  · rw [Function.update_apply] at hr
    split at hr
    · cases hr
      rcases hcases ha with ha | ⟨-, rfl⟩
      · exact absurd (List.getElem?_eq_some_iff.1 ha).1 (Nat.lt_irrefl _)
      · cases hplaced
    · rcases hcases ha with ha | ⟨rfl, rfl⟩
      · exact h.held c' t' a add hp' hr ha hplaced
      · cases hplaced
  · obtain ⟨add', ha', -⟩ := h.queued a (he ▸ hw)
    have heq : add = add' := Option.some.inj (ha.symm.trans (hleft ha'))
    exact hrel a k add he he' (heq ▸ ha') hp'

/-- The tasks keep their connections, topics and stages. -/
theorem congrAdds (h : Observes protocol readyOf adds observers queue removes)
    {adds' : List ObserverAdd}
    (hadds : ∀ a : Nat, (adds'[a]?).map (fun add => (add.connection, add.topic, add.stage)) =
      (adds[a]?).map fun add => (add.connection, add.topic, add.stage)) :
    Observes protocol readyOf adds' observers queue removes := by
  have hto {a : Nat} {add : ObserverAdd} (ha : adds[a]? = some add) :
      ∃ add', adds'[a]? = some add' ∧ add'.connection = add.connection ∧ add'.topic = add.topic ∧
        add'.stage = add.stage := by
    have heq := hadds a
    rw [ha] at heq
    obtain ⟨add', ha', he⟩ := Option.map_eq_some_iff.1 heq
    exact ⟨add', ha', (Prod.mk.inj he).1, (Prod.mk.inj (Prod.mk.inj he).2).1,
      (Prod.mk.inj (Prod.mk.inj he).2).2⟩
  have hfrom {a : Nat} {add' : ObserverAdd} (ha' : adds'[a]? = some add') :
      ∃ add, adds[a]? = some add ∧ add'.connection = add.connection ∧ add'.topic = add.topic ∧
        add'.stage = add.stage := by
    have heq := hadds a
    rw [ha'] at heq
    obtain ⟨add, ha, he⟩ := Option.map_eq_some_iff.1 heq.symm
    exact ⟨add, ha, (Prod.mk.inj he).1.symm, (Prod.mk.inj (Prod.mk.inj he).2).1.symm,
      (Prod.mk.inj (Prod.mk.inj he).2).2.symm⟩
  refine ⟨h.nodup, fun a hin => ?_, h.removing, fun t a hr => ?_, fun a add' ha' hp hrun => ?_,
    fun c t hp hin => ?_, fun c t a add' hp hr ha' hplaced => ?_,
    h.order.imp fun {w w'} hrel a k add' he he' ha' hp => ?_⟩
  · obtain ⟨add, ha, hstage⟩ := h.queued a hin
    obtain ⟨add', ha', -, -, hs⟩ := hto ha
    exact ⟨add', ha', hs.trans hstage⟩
  · obtain ⟨add, ha, hp, ht⟩ := h.ready t a hr
    obtain ⟨add', ha', hc, ht', -⟩ := hto ha
    exact ⟨add', ha', hc ▸ hp, ht'.trans ht⟩
  · obtain ⟨add, ha, hc, ht, hs⟩ := hfrom ha'
    rw [ht]
    exact h.owned a add ha (hc ▸ hp) (hs ▸ hrun)
  · rcases h.observed c t hp hin with hleave | ⟨a, add, hr, ha, hplaced⟩
    · exact Or.inl hleave
    · obtain ⟨add', ha', -, -, hs⟩ := hto ha
      exact Or.inr ⟨a, add', hr, ha', hs ▸ hplaced⟩
  · obtain ⟨add, ha, -, -, hs⟩ := hfrom ha'
    exact h.held c t a add hp hr ha (hs ▸ hplaced)
  · obtain ⟨add, ha, hc, ht, -⟩ := hfrom ha'
    rw [hc, ht]
    exact hrel a k add he he' ha (hc ▸ hp)

/-! ## Connections -/

/-- A new connection has no observers, and the interests have no ready tasks. -/
theorem bind (h : Observes protocol readyOf adds observers queue removes)
    (hold : Older c protocol adds observers removes) :
    Observes (some c) (fun _ => none) adds observers queue removes := by
  have hnone {a : Nat} {add : ObserverAdd} (ha : adds[a]? = some add)
      (hp : some c = some add.connection) : False := by
    have hlt := hold.adds add (List.mem_of_getElem? ha)
    have heq := Option.some.inj hp
    omega
  refine ⟨h.nodup, h.queued, h.removing, nofun, fun a add ha hp => (hnone ha hp).elim,
    fun c' t hp hin => ?_, nofun, h.order.imp fun {w w'} _ a k add _ _ ha hp => (hnone ha hp).elim⟩
  have hlt := hold.observers (c', t) hin
  have heq := Option.some.inj hp
  dsimp only at hlt
  omega

/-- There is no connection and no interest. -/
theorem unbind (h : Observes protocol readyOf adds observers queue removes) :
    Observes none (fun _ => none) adds observers queue removes :=
  ⟨h.nodup, h.queued, h.removing, nofun, nofun, nofun, nofun,
    h.order.imp fun {_ _} _ _ _ _ _ _ _ hp => nomatch hp⟩

/-! ## Calls -/

/-- One task gets to its next stage. Its topic enters the set only as it is placed, and leaves
    it only as it fails. -/
theorem restage (h : Observes protocol readyOf adds observers queue removes)
    (ha : adds[a]? = some add) (stage : AddStage) {observers' : List (Nat × String)}
    {queue' : List GuardWaiter} (hnodup : queue'.Nodup)
    (hremove : ∀ k, .remove k ∈ queue' ↔ .remove k ∈ queue)
    (hadds : ∀ b, .add b ∈ queue' → b = a ∧ stage = .queued ∨ b ≠ a ∧ .add b ∈ queue)
    (horder : queue'.Pairwise fun w w' => ∀ (a k : Nat) (add : ObserverAdd), w = .add a →
      w' = .remove k → adds[a]? = some add → protocol = some add.connection →
      removes k ≠ some (add.connection, add.topic))
    (hrun : stage.running = true → add.stage.running = true)
    (hnew : ∀ guard ∈ observers', guard ∈ observers ∨
      guard = (add.connection, add.topic) ∧ stage.placed = true ∧ add.stage.running = true)
    (hlost : ∀ guard ∈ observers, guard ∈ observers' ∨
      guard = (add.connection, add.topic) ∧ add.stage.running = true)
    (hunplaced : stage.placed = false → add.stage.placed = true →
      (add.connection, add.topic) ∉ observers')
    (hplaced : protocol = some add.connection → readyOf add.topic = some a → stage.placed = true →
      (add.connection, add.topic) ∈ observers' ∧
        ¬ Leaving queue removes add.connection add.topic) :
    Observes protocol readyOf (adds.set a { add with stage }) observers' queue' removes := by
  have hlt := (List.getElem?_eq_some_iff.1 ha).1
  have hget (b : Nat) : (adds.set a { add with stage })[b]? =
      if a = b then some { add with stage } else adds[b]? := by
    rw [List.getElem?_set]
    by_cases hab : a = b
    · simp [hab, hab ▸ hlt]
    · simp [hab]
  have hleaving {c : Nat} {t : String} :
      Leaving queue' removes c t ↔ Leaving queue removes c t := by
    constructor
    · rintro ⟨k, hin, hrem⟩
      exact ⟨k, (hremove k).1 hin, hrem⟩
    · rintro ⟨k, hin, hrem⟩
      exact ⟨k, (hremove k).2 hin, hrem⟩
  have hself (t : String) (hr : readyOf t = some a) : protocol = some add.connection ∧ add.topic = t := by
    obtain ⟨add', ha', hp, ht⟩ := h.ready t a hr
    obtain rfl : add = add' := Option.some.inj (ha.symm.trans ha')
    exact ⟨hp, ht⟩
  refine ⟨hnodup, fun b hin => ?_, fun k hin => h.removing k ((hremove k).1 hin), fun t b hr => ?_,
    fun b x hx hp hrunning => ?_, fun c t hp hin => ?_, fun c t b x hp hr hx hstage => ?_,
    horder.imp fun {w w'} hrel b k x he he' hx hp => ?_⟩
  · rcases hadds b hin with ⟨rfl, hs⟩ | ⟨hne, hin⟩
    · exact ⟨_, by rw [hget, if_pos rfl], hs⟩
    · obtain ⟨x, hx, hs⟩ := h.queued b hin
      exact ⟨x, by rw [hget, if_neg (Ne.symm hne)]; exact hx, hs⟩
  · obtain ⟨x, hx, hp, ht⟩ := h.ready t b hr
    rw [hget]
    split
    · next he =>
      subst he
      obtain rfl : add = x := Option.some.inj (ha.symm.trans hx)
      exact ⟨_, rfl, hp, ht⟩
    · exact ⟨x, hx, hp, ht⟩
  · rw [hget] at hx
    split at hx
    · next he =>
      subst he
      cases hx
      exact h.owned a add ha hp (hrun hrunning)
    · exact h.owned b x hx hp hrunning
  · rw [hleaving]
    rcases hnew _ hin with hold | ⟨he, hs, hrunning⟩
    · rcases h.observed c t hp hold with hleave | ⟨b, x, hr, hx, hs⟩
      · exact Or.inl hleave
      · by_cases hab : a = b
        · subst hab
          obtain rfl : add = x := Option.some.inj (ha.symm.trans hx)
          cases hstage : stage.placed with
          | true => exact Or.inr ⟨a, _, hr, by rw [hget, if_pos rfl], hstage⟩
          | false =>
            obtain ⟨hp', ht⟩ := hself t hr
            obtain rfl : add.connection = c := Option.some.inj (hp'.symm.trans hp)
            exact absurd (ht ▸ hin) (hunplaced hstage hs)
        · exact Or.inr ⟨b, x, hr, by rw [hget, if_neg hab]; exact hx, hs⟩
    · cases he
      exact Or.inr ⟨a, _, h.owned a add ha hp hrunning, by rw [hget, if_pos rfl], hs⟩
  · rw [hleaving]
    rw [hget] at hx
    split at hx
    · next he =>
      subst he
      cases hx
      obtain ⟨hp', ht⟩ := hself t hr
      obtain rfl : add.connection = c := Option.some.inj (hp'.symm.trans hp)
      rw [← ht] at hr ⊢
      exact hplaced hp hr hstage
    · next hne =>
      obtain ⟨hin, hno⟩ := h.held c t b x hp hr hx hstage
      refine ⟨(hlost _ hin).resolve_right ?_, hno⟩
      rintro ⟨he, hrunning⟩
      cases he
      have hmine := h.owned a add ha hp hrunning
      rw [hr] at hmine
      exact hne (Option.some.inj hmine).symm
  · rw [hget] at hx
    split at hx
    · next hab =>
      subst hab
      cases hx
      exact hrel a k add he he' ha hp
    · exact hrel b k x he he' hx hp

/-- A task that is not queued. -/
theorem not_mem_queue (h : Observes protocol readyOf adds observers queue removes)
    (ha : adds[a]? = some add) (hstage : add.stage ≠ .queued) : .add a ∉ queue := by
  intro hin
  obtain ⟨add', ha', hs⟩ := h.queued a hin
  obtain rfl : add = add' := Option.some.inj (ha.symm.trans ha')
  exact hstage hs

/-- A task waits for its guard. -/
theorem start (h : Observes protocol readyOf adds observers queue removes)
    (ha : adds[a]? = some add) (hstage : add.stage = .created) :
    Observes protocol readyOf (adds.set a { add with stage := .queued }) observers
      (queue ++ [.add a]) removes := by
  have hnot : .add a ∉ queue := h.not_mem_queue ha (by rw [hstage]; nofun)
  refine h.restage ha .queued ?_ (fun k => ?_) (fun b hin => ?_) ?_ (fun _ => by rw [hstage]; rfl)
    (fun _ hin => Or.inl hin) (fun _ hin => Or.inl hin) (fun _ hp => ?_) (fun _ _ hp => ?_)
  · refine List.nodup_append.2 ⟨h.nodup, List.nodup_singleton _, fun w hw w' hw' => ?_⟩
    rw [List.mem_singleton.1 hw']
    rintro rfl
    exact hnot hw
  · simp
  · rcases List.mem_append.1 hin with hin | hin
    · refine Or.inr ⟨fun hab => ?_, hin⟩
      rw [hab] at hin
      exact hnot hin
    · cases List.mem_singleton.1 hin
      exact Or.inl ⟨rfl, rfl⟩
  · refine List.pairwise_append.2 ⟨h.order, List.pairwise_singleton _ _, fun w _ w' hw' => ?_⟩
    intro b k x _ he'
    rw [List.mem_singleton.1 hw'] at he'
    cases he'
  · rw [hstage] at hp
    cases hp
  · cases hp

/-- A task takes its guard: the topic is in the set then. No removal of the topic came before
    it. -/
theorem enterAdd (h : Observes protocol readyOf adds observers queue removes)
    (hn : queue[n]? = some (.add a)) (ha : adds[a]? = some add)
    (hfirst : ∀ k, .remove k ∈ queue.take n → removes k ≠ some (add.connection, add.topic))
    {stage : AddStage} (hstage : stage.placed = true) {observers' : List (Nat × String)}
    (hsub : observers ⊆ observers') (hin : (add.connection, add.topic) ∈ observers')
    (hnew : ∀ guard ∈ observers', guard ∈ observers ∨ guard = (add.connection, add.topic)) :
    Observes protocol readyOf (adds.set a { add with stage }) observers' (queue.eraseIdx n)
      removes := by
  have hqueued : add.stage = .queued := by
    obtain ⟨add', ha', hs⟩ := h.queued a (List.mem_of_getElem? hn)
    rw [Option.some.inj (ha.symm.trans ha')]
    exact hs
  have hrunning : add.stage.running = true := by rw [hqueued]; rfl
  obtain ⟨l, r, rfl, hl, hrest⟩ := split_eraseIdx hn
  rw [hrest]
  rw [hl] at hfirst
  have hnodup := List.nodup_middle.1 h.nodup
  have hsublist : (l ++ r).Sublist (l ++ .add a :: r) :=
    (List.Sublist.refl l).append (List.sublist_cons_self _ r)
  refine h.restage ha stage (List.nodup_cons.1 hnodup).2 (fun k => by simp) (fun b hb => ?_)
    (h.order.sublist hsublist) (fun _ => hrunning)
    (fun guard hg => (hnew guard hg).imp_right fun he => ⟨he, hstage, hrunning⟩)
    (fun guard hg => Or.inl (hsub hg)) (fun hs => by rw [hstage] at hs; cases hs)
    fun hp _ _ => ⟨hin, ?_⟩
  · refine Or.inr ⟨?_, hsublist.subset hb⟩
    rintro rfl
    exact (List.nodup_cons.1 hnodup).1 hb
  · -- removals behind the task would be out of order
    rintro ⟨k, hk, hrem⟩
    rcases List.mem_append.1 hk with hk | hk
    · exact hfirst k hk hrem
    · have hk : .remove k ∈ r := (List.mem_cons.1 hk).resolve_left nofun
      have horder := (List.pairwise_cons.1 (List.pairwise_append.1 h.order).2.1).1
      exact horder _ hk a k add rfl rfl ha hp hrem

/-- A task ends before it has taken its guard. -/
theorem endEarly (h : Observes protocol readyOf adds observers queue removes)
    (ha : adds[a]? = some add) (hstage : add.stage = .created ∨ add.stage = .queued) :
    Observes protocol readyOf (adds.set a { add with stage := .failed }) observers
      (queue.filter (· ≠ .add a)) removes := by
  have hplaced : add.stage.placed = false := by rcases hstage with hs | hs <;> rw [hs] <;> rfl
  refine h.restage ha .failed (h.nodup.filter _) (fun k => ?_) (fun b hin => ?_)
    (h.order.sublist List.filter_sublist) nofun (fun _ hin => Or.inl hin) (fun _ hin => Or.inl hin)
    (fun _ hp => ?_) nofun
  · simp
  · obtain ⟨hin, hne⟩ := List.mem_filter.1 hin
    refine Or.inr ⟨?_, hin⟩
    rintro rfl
    simp at hne
  · rw [hplaced] at hp
    cases hp

/-- The broker has answered. -/
theorem endOk (h : Observes protocol readyOf adds observers queue removes)
    (ha : adds[a]? = some add) (hstage : add.stage = .exchanging) :
    Observes protocol readyOf (adds.set a { add with stage := .ok }) observers queue removes := by
  have hnot := h.not_mem_queue ha (by rw [hstage]; nofun)
  refine h.restage ha .ok h.nodup (fun k => Iff.rfl) (fun b hin => ?_) h.order nofun
    (fun _ hin => Or.inl hin) (fun _ hin => Or.inl hin) nofun fun hp hr _ => ?_
  · refine Or.inr ⟨?_, hin⟩
    rintro rfl
    exact hnot hin
  · exact h.held add.connection add.topic a add hp hr ha (by rw [hstage]; rfl)

/-- The call has failed and takes the topic out of the set. -/
theorem endFailed (h : Observes protocol readyOf adds observers queue removes)
    (ha : adds[a]? = some add) (hstage : add.stage = .exchanging) :
    Observes protocol readyOf (adds.set a { add with stage := .failed })
      (observers.filter (· ≠ (add.connection, add.topic))) queue removes := by
  have hnot := h.not_mem_queue ha (by rw [hstage]; nofun)
  refine h.restage ha .failed h.nodup (fun k => Iff.rfl) (fun b hin => ?_) h.order nofun
    (fun guard hg => Or.inl (List.mem_of_mem_filter hg)) (fun guard hg => ?_) (fun _ _ => ?_) nofun
  · refine Or.inr ⟨?_, hin⟩
    rintro rfl
    exact hnot hin
  · by_cases he : guard = (add.connection, add.topic)
    · exact Or.inr ⟨he, by rw [hstage]; rfl⟩
    · exact Or.inl (List.mem_filter.2 ⟨hg, decide_eq_true he⟩)
  · simp

/-- A removal leaves the queue. Either it takes the topic out of the set, or it belongs to
    another connection. -/
theorem leave (h : Observes protocol readyOf adds observers queue removes)
    {guard : Nat × String} (hk : removes k = some guard) {queue' : List GuardWaiter}
    (hqueue : queue'.Sublist queue) (hgone : .remove k ∉ queue')
    (hstay : ∀ w ∈ queue, w ≠ .remove k → w ∈ queue') {observers' : List (Nat × String)}
    (hsub : ∀ g ∈ observers', g ∈ observers) (hlost : ∀ g ∈ observers, g ∈ observers' ∨ g = guard)
    (hremoved : guard ∉ observers' ∨ protocol ≠ some guard.1 ∧ observers' = observers)
    (hin : .remove k ∈ queue) :
    Observes protocol readyOf adds observers' queue' (Function.update removes k none) := by
  have hother {k' : Nat} (hk' : .remove k' ∈ queue') :
      Function.update removes k none k' = removes k' := by
    refine Function.update_of_ne (fun he => ?_) _ _
    exact hgone (he ▸ hk')
  have hleaving {c : Nat} {t : String}
      (hleave : Leaving queue' (Function.update removes k none) c t) : Leaving queue removes c t := by
    obtain ⟨k', hk', hrem⟩ := hleave
    exact ⟨k', hqueue.subset hk', (hother hk').symm.trans hrem⟩
  refine ⟨h.nodup.sublist hqueue, fun a ha => h.queued a (hqueue.subset ha), fun k' hk' => ?_,
    h.ready, h.owned, fun c t hp hg => ?_, fun c t a add hp hr ha hplaced => ?_,
    (h.order.sublist hqueue).imp_of_mem fun {w w'} _ hw' hrel a k' add he he' ha hp => ?_⟩
  · rw [hother hk']
    exact h.removing k' (hqueue.subset hk')
  · rcases h.observed c t hp (hsub _ hg) with ⟨k', hk', hrem⟩ | hready
    · have hne : k' ≠ k := by
        rintro rfl
        rw [hk] at hrem
        obtain rfl := Option.some.inj hrem
        rcases hremoved with hno | ⟨hold, -⟩
        · exact hno hg
        · exact hold hp
      have hstays : .remove k' ∈ queue' := hstay _ hk' (by simpa using hne)
      exact Or.inl ⟨k', hstays, (hother hstays).trans hrem⟩
    · exact Or.inr hready
  · obtain ⟨hmem, hno⟩ := h.held c t a add hp hr ha hplaced
    refine ⟨(hlost _ hmem).resolve_right ?_, fun hleave => hno (hleaving hleave)⟩
    rintro rfl
    exact hno ⟨k, hin, hk⟩
  · rw [hother (he' ▸ hw')]
    exact hrel a k' add he he' ha hp

/-- A removal takes its guard and the topic leaves the set, if it is there. -/
theorem enterRemove (h : Observes protocol readyOf adds observers queue removes)
    (hn : queue[n]? = some (.remove k)) {guard : Nat × String} (hk : removes k = some guard) :
    Observes protocol readyOf adds (observers.filter (· ≠ guard)) (queue.eraseIdx n)
      (Function.update removes k none) := by
  have hin := List.mem_of_getElem? hn
  obtain ⟨l, r, rfl, -, hrest⟩ := split_eraseIdx hn
  rw [hrest]
  have hnodup := List.nodup_middle.1 h.nodup
  refine h.leave hk ((List.Sublist.refl l).append (List.sublist_cons_self _ r))
    (List.nodup_cons.1 hnodup).1 (fun w hw hne => ?_) (fun g hg => List.mem_of_mem_filter hg)
    (fun g hg => ?_) (Or.inl (by simp)) hin
  · simpa [hne] using hw
  · by_cases he : g = guard
    · exact Or.inr he
    · exact Or.inl (List.mem_filter.2 ⟨hg, decide_eq_true he⟩)

/-- A removal of another connection is cancelled in the queue. -/
theorem cancelRemove (h : Observes protocol readyOf adds observers queue removes)
    {guard : Nat × String} (hk : removes k = some guard) (hin : .remove k ∈ queue)
    (hold : protocol ≠ some guard.1) :
    Observes protocol readyOf adds observers (queue.filter (· ≠ .remove k))
      (Function.update removes k none) := by
  refine h.leave hk List.filter_sublist (by simp) (fun w hw hne => ?_) (fun _ hg => hg)
    (fun _ hg => Or.inl hg) (Or.inr ⟨hold, rfl⟩) hin
  exact List.mem_filter.2 ⟨hw, decide_eq_true hne⟩

/-- A call of a removal that is not in the queue goes on. -/
theorem forget (h : Observes protocol readyOf adds observers queue removes)
    (hnot : .remove k ∉ queue) :
    Observes protocol readyOf adds observers queue (Function.update removes k none) := by
  have hother {k' : Nat} (hin : .remove k' ∈ queue) :
      Function.update removes k none k' = removes k' := by
    refine Function.update_of_ne ?_ _ _
    rintro rfl
    exact hnot hin
  refine ⟨h.nodup, h.queued, fun k' hin => ?_, h.ready, h.owned, fun c t hp hg => ?_,
    fun c t a add hp hr ha hplaced => ?_,
    h.order.imp_of_mem fun {w w'} _ hw' hrel a k' add he he' ha hp => ?_⟩
  · rw [hother hin]
    exact h.removing k' hin
  · rcases h.observed c t hp hg with ⟨k', hin, hrem⟩ | hready
    · exact Or.inl ⟨k', hin, (hother hin).trans hrem⟩
    · exact Or.inr hready
  · obtain ⟨hmem, hno⟩ := h.held c t a add hp hr ha hplaced
    refine ⟨hmem, ?_⟩
    rintro ⟨k', hin, hrem⟩
    exact hno ⟨k', hin, (hother hin).symm.trans hrem⟩
  · rw [hother (he' ▸ hw')]
    exact hrel a k' add he he' ha hp

end Observes

end Zmqtt
