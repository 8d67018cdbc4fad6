/-
  A drain ends. The task inside the delivery lock has `Buffered.toGo` messages before it: the
  one in delivery, the rest of its pass, and those that were taken in meanwhile. Each time it
  is resumed it leaves the lock or has one message less before it; a PUBLISH adds at most one
  message, and no other step of any task adds any.
-/
import Zmqtt.Inbound.TopicOrder

namespace Zmqtt

/-- The messages before the task inside the lock. -/
def Buffered.toGo (b : Buffered) : Nat :=
  match b.holder with
  | none => 0
  | some d => d.pending.length + b.publishes.length + 1

theorem toGo_of_holder_none {b : Buffered} (h : b.holder = none) : b.toGo = 0 := by
  rw [Buffered.toGo, h]

theorem holder_none_of_toGo {b : Buffered} (h : b.toGo = 0) : b.holder = none := by
  unfold Buffered.toGo at h
  cases hd : b.holder with
  | none => rfl
  | some d => rw [hd] at h; cases h

theorem toGo_of_holder {b : Buffered} {d : Delivery} (h : b.holder = some d) :
    b.toGo = d.pending.length + b.publishes.length + 1 := by
  rw [Buffered.toGo, h]

/-- The event brings a PUBLISH. -/
def InboundEvent.isPublish : InboundEvent → Bool
  | publish _ _ => true
  | _ => false

/-- The event resumes the task inside the lock of object `i`. -/
def InboundEvent.resumes (i : Nat) : InboundEvent → Bool
  | resumeDelivery j _ => j = i
  | _ => false

namespace InboundPublishFlow

variable {f f' : InboundPublishFlow} {i : Nat} {b : Buffered} {d : Delivery}

theorem SameContents.toGo_le {b' : Buffered} (h : SameContents b b') : b'.toGo ≤ b.toGo := by
  cases hb' : b'.holder with
  | none =>
    rw [toGo_of_holder_none hb']
    exact Nat.zero_le _
  | some d' =>
    obtain ⟨d, hd, -, hp, -, -⟩ := h.holder d' hb'
    rw [toGo_of_holder hb', toGo_of_holder hd, hp, h.publishes]

theorem publishes_of_unlocked (hb : f.Unlocked i b) : f.publishes i = b.publishes := by
  rw [InboundPublishFlow.publishes, hb.1]

theorem publishes_setBuffer (hb : f.buffers[i]? = some b) (b' : Buffered) :
    (f.setBuffer i b').publishes i = b'.publishes := by
  rw [InboundPublishFlow.publishes, getElem?_setBuffer hb]

/-! ## A stretch of the task -/

/-- Object `i` has at most `n` messages before the task inside its lock. -/
def AtMostToGo (i n : Nat) (f : InboundPublishFlow) : Prop :=
  ∃ b, f.buffers[i]? = some b ∧ b.toGo ≤ n

/-- The task leaves the object unlocked. -/
theorem atMostToGo_of_released {n : Nat} (hb : f.buffers[i]? = some b) (h : b.holder = none) :
    AtMostToGo i n f := by
  refine ⟨b, hb, ?_⟩
  rw [toGo_of_holder_none h]
  exact Nat.zero_le n

/-- Where the task stops, `n` messages are before it if no more were when it set out. -/
theorem toGo_passRule (env : Environment) (i n : Nat) :
    PassRule (AtMostToGo i n) (fun f _ pending => pending.length + (f.publishes i).length ≤ n)
      (fun _ _ => True) (fun f _ pending _ => pending.length + (f.publishes i).length + 1 ≤ n)
      env i where
  setAside f unmatched m pending h _ := by
    rw [List.length_cons] at h
    omega
  refill f b unmatched h hb := by
    rw [publishes_of_unlocked hb, List.length_nil, Nat.zero_add] at h
    rw [publishes_setBuffer hb.1]
    exact h
  handsOn f f' unmatched m pending h _ hands := by
    have hsame : f'.publishes i = f.publishes i := by
      rw [InboundPublishFlow.publishes, hands.buffers]
      rfl
    rw [List.length_cons] at h
    rw [hsame]
    omega
  discarded f b unmatched pending m h hb _ := by
    rw [publishes_of_unlocked hb] at h
    rw [publishes_setBuffer hb.1, publishes_discard]
    omega
  keyError _ _ _ _ _ _ _ _ := trivial
  valueError _ _ _ _ _ := trivial
  suspend f b caller unmatched pending m h hb := by
    rw [publishes_of_unlocked hb] at h
    exact ⟨_, getElem?_setBuffer hb.1 _, h⟩
  fail f b caller unmatched pending _ hb := by
    refine atMostToGo_of_released (getElem?_setBuffer hb.1 _) ?_
    cases caller <;> rfl
  drained f b unmatched _ hb := by
    unfold finishDrain
    split
    · refine atMostToGo_of_released (b := (b.putBack unmatched).cancelExpiration) ?_ ?_
      · rw [buffers_leaveBuffer]
        exact getElem?_setBuffer hb.1 _
      · unfold Buffered.cancelExpiration
        split <;> rfl
    · exact atMostToGo_of_released (getElem?_setBuffer hb.1 _) rfl
  expired f b unmatched _ hb := by
    refine atMostToGo_of_released (b := (b.putBack unmatched).empty.endExpiration .expire) ?_ rfl
    rw [finishExpire, buffers_leaveBuffer]
    exact getElem?_setBuffer (f := f.logDropped _) hb.1 _

/-- An interrupted task leaves the lock. -/
theorem interruptDelivery_toGo (hb : f.buffers[i]? = some b) (hd : b.holder = some d) (n : Nat) :
    AtMostToGo i n (f.interruptDelivery i) := by
  have hset := getElem?_setBuffer hb { b with holder := none }
  simp only [interruptDelivery, hb, hd, settle, hset]
  refine atMostToGo_of_released (getElem?_setBuffer hset _) ?_
  cases d.caller <;> rfl

/-- A resumed task has one message less before it. -/
theorem resumeDelivery_toGo (hidle : f.IdleRest) (env : Environment)
    (hb : f.buffers[i]? = some b) (hd : b.holder = some d) :
    AtMostToGo i (d.pending.length + b.publishes.length) (f.resumeDelivery env i) := by
  have rule := toGo_passRule env i (d.pending.length + b.publishes.length)
  have hrest := hidle b (List.mem_of_getElem? hb) d hd
  have hfree : (f.setBuffer i { b with holder := none }).Unlocked i { b with holder := none } :=
    ⟨getElem?_setBuffer hb _, rfl⟩
  by_cases hc : d.cancelled = true
  · have hinterrupt : f.resumeDelivery env i = f.interruptDelivery i := by
      simp only [resumeDelivery, hb, hd, hc, if_true]
    rw [hinterrupt]
    exact interruptDelivery_toGo hb hd _
  · have hpub := publishes_discard { b with holder := none } d.current
    simp only [resumeDelivery, hb, hd, if_neg hc, hrest, runActs, discard, hfree.1]
    split
    · next f' hdis =>
      obtain ⟨rfl, -⟩ := Prod.mk.inj hdis
      exact rule.settle d.caller ⟨⟨_, hfree.discard d.current⟩, trivial⟩
    · next f' hdis =>
      obtain ⟨rfl, -⟩ := Prod.mk.inj hdis
      refine rule.settle d.caller (rule.deliverPending _ _ (hfree.discard d.current) ?_)
      rw [publishes_setBuffer hfree.1, hpub]

/-! ## The other tasks -/

/-- A task that works on an object touches no other. -/
theorem other_drainRule {j : Nat} (hij : j ≠ i) (b : Buffered) :
    DrainRule (fun f => f.buffers[i]? = some b) (fun f _ => f.buffers[i]? = some b)
      (fun f _ => f.buffers[i]? = some b) (fun f _ _ => f.buffers[i]? = some b) j := by
  refine drainRule_of_move (K := fun f _ => f.buffers[i]? = some b) j ?_ ?_ ?_ ?_ ?_
  · intro f c c' air air' h _ _
    exact (List.getElem?_set_ne hij).trans h
  · exact fun f a c _ h => h
  · intro f f' r air h hands
    rw [hands.buffers]
    exact h
  · exact fun f replay h => h
  · exact fun f ms air h => h

theorem Handles.toGo {env : Environment} {m : Received} {acts : List Act}
    (h : Handles f env m f' acts) (hb : f.buffers[i]? = some b) :
    AtMostToGo i (b.toGo + 1) f' := by
  have hsame : AtMostToGo i (b.toGo + 1) f := ⟨b, hb, Nat.le_succ _⟩
  cases h with
  | takesIn htakes _ =>
    cases htakes with
    | new _ =>
      refine ⟨b, ?_, Nat.le_succ _⟩
      rw [← hb]
      exact List.getElem?_append_left (List.getElem?_eq_some_iff.1 hb).1
    | old j c _ hc _ _ =>
      by_cases hij : j = i
      · subst hij
        obtain rfl := Option.some.inj (hb.symm.trans hc)
        refine ⟨b.append m, getElem?_setBuffer hb _, ?_⟩
        simp only [Buffered.toGo, Buffered.append]
        cases b.holder with
        | none => exact Nat.zero_le _
        | some d =>
          dsimp only
          rw [List.length_append, List.length_singleton]
          omega
      · exact ⟨b, (List.getElem?_set_ne hij).trans hb, Nat.le_succ _⟩
  | _ => exact hsame

/-- A resumption takes one message off those before the task, and a PUBLISH adds at most
    one. -/
theorem toGo_step (hidle : f.IdleRest) (hb : f.buffers[i]? = some b) (hd : b.holder = some d)
    (e : InboundEvent) : ∃ b', (f.step e).buffers[i]? = some b' ∧
      b'.toGo + (if e.resumes i then 1 else 0) ≤ b.toGo + if e.isPublish then 1 else 0 := by
  have hkeep : ∀ {g : InboundPublishFlow}, g.buffers = f.buffers → AtMostToGo i b.toGo g :=
    fun he => ⟨b, he ▸ hb, Nat.le_refl _⟩
  have hother : ∀ {g : InboundPublishFlow}, g.buffers[i]? = some b → AtMostToGo i b.toGo g :=
    fun he => ⟨b, he, Nat.le_refl _⟩
  have hwaiting : (e = .drain ∨ (∃ i, e = .expire i) ∨ ∃ i k, e = .cancelWaiter i k) →
      AtMostToGo i b.toGo (f.step e) := by
    intro he
    rcases f.waiting_cases he with heq | ⟨j, c, c', hc, hsame, heq⟩ <;> rw [heq]
    · exact hkeep rfl
    · by_cases hij : j = i
      · subst hij
        obtain rfl := Option.some.inj (hb.symm.trans hc)
        exact ⟨c', getElem?_setBuffer hb c', hsame.toGo_le⟩
      · exact hother ((List.getElem?_set_ne hij).trans hb)
  cases e with
  | publish packet env =>
    change AtMostToGo i (b.toGo + 1) _
    rw [step, receivePublish]
    split
    · unfold dispatch
      split
      · exact ⟨b, hb, Nat.le_succ _⟩
      · next f₁ acts hok =>
        obtain ⟨b', hb', hle⟩ := (handlePublish_cases hok).toGo (f := f.receive packet) hb
        exact ⟨b', by rw [(sameTables_runReader env acts f₁).buffers]; exact hb', hle⟩
    all_goals exact ⟨b, hb, Nat.le_succ _⟩
  | pubrel pid env =>
    change AtMostToGo i b.toGo _
    rw [step, receivePubrel]
    split
    · unfold dispatch
      split
      · exact hkeep rfl
      · next f₁ acts hok =>
        refine hkeep ((sameTables_runReader env acts f₁).buffers.trans ?_)
        unfold handlePubrel at hok
        split at hok
        · cases hok
        · cases hok; rfl
    all_goals exact hkeep rfl
  | resumeReader env =>
    change AtMostToGo i b.toGo _
    rw [step, resumeReader]
    split
    · next acts _ => exact hkeep (sameTables_runReader env acts f).buffers
    all_goals exact hkeep rfl
  | interruptReader =>
    change AtMostToGo i b.toGo _
    rw [step, interruptReader]
    split <;> exact hkeep rfl
  | ack k =>
    refine hkeep ?_
    rcases f.ack_cases k with he | ⟨message, _, _, ⟨he, -⟩ | ⟨pid, r, -, he⟩ | ⟨pid, r, _, he⟩⟩ <;>
      rw [step, he] <;> rfl
  | get queue => exact hkeep rfl
  | subscriptions index => exact hkeep rfl
  | drain => exact hwaiting (Or.inl rfl)
  | expire j => exact hwaiting (Or.inr (Or.inl ⟨j, rfl⟩))
  | cancelWaiter j k => exact hwaiting (Or.inr (Or.inr ⟨j, k, rfl⟩))
  | acquireLock j env =>
    by_cases hij : j = i
    · subst hij
      have hlocked : f.acquireLock env j = f := by
        unfold acquireLock
        rw [hb]
        dsimp only
        rw [hd]
      exact hkeep (by rw [step, hlocked])
    · exact hother ((other_drainRule hij b).acquireLock env hb)
  | resumeDelivery j env =>
    by_cases hij : j = i
    · subst hij
      obtain ⟨b', hb', hle⟩ := resumeDelivery_toGo hidle env hb hd
      refine ⟨b', hb', ?_⟩
      simp only [InboundEvent.resumes, InboundEvent.isPublish, decide_true, if_true]
      rw [toGo_of_holder hd]
      exact Nat.succ_le_succ hle
    · have hno : (InboundEvent.resumeDelivery j env).resumes i = false := decide_eq_false hij
      rw [hno]
      refine hother ?_
      by_cases hgoes : ∀ b d, f.buffers[j]? = some b → b.holder = some d → d.cancelled = false
      · exact (other_drainRule hij b).resumeDelivery env hidle hb hgoes
      · rw [step, resumeDelivery_of_cancelled hgoes]
        exact (other_drainRule hij b).interruptDelivery hb fun _ _ _ _ =>
          (List.getElem?_set_ne hij).trans hb
  | interruptDelivery j =>
    by_cases hij : j = i
    · subst hij
      exact interruptDelivery_toGo hb hd _
    · exact hother ((other_drainRule hij b).interruptDelivery hb fun _ _ _ _ =>
        (List.getElem?_set_ne hij).trans hb)
  | clear =>
    change AtMostToGo i b.toGo _
    rw [step, InboundPublishFlow.clear]
    split
    · exact hkeep rfl
    · exact hkeep rfl
    · next j _ =>
      split
      · exact hkeep rfl
      · next c hc =>
        by_cases hij : j = i
        · subst hij
          obtain rfl := Option.some.inj (hb.symm.trans hc)
          refine ⟨_, getElem?_setBuffer (f := f.logDropped b.publishes) hb _, ?_⟩
          refine le_trans ?_ (sameContents_cancelExpiration b).toGo_le
          simp only [Buffered.toGo, Buffered.empty]
          split
          · exact Nat.zero_le _
          · exact Nat.succ_le_succ (Nat.add_le_add_left (Nat.zero_le _) _)
        · exact hother ((List.getElem?_set_ne hij).trans hb)

/-! ## Runs -/

/-- **A drain ends.** Whatever other tasks do in between, the task inside a delivery lock has
    left it by the time it was resumed as often as there were messages before it, plus one
    more time for each PUBLISH received since. -/
theorem drain_ends (bufferSize : Nat) (maxsize : Nat → Nat) (sessionPresent : Bool)
    (f : InboundPublishFlow) (h : Reach step anyStep (fresh bufferSize maxsize sessionPresent) f)
    (i : Nat) (b : Buffered) (hb : f.buffers[i]? = some b) (events : List InboundEvent)
    (hresumed : b.toGo + events.countP InboundEvent.isPublish ≤
      events.countP (InboundEvent.resumes i)) :
    ∃ past rest b', past ++ rest = events ∧
      (past.foldl step f).buffers[i]? = some b' ∧ b'.holder = none := by
  have hidle : f.IdleRest :=
    Reach.invariant (I := IdleRest) h (idleRest_fresh _ _ _) fun f e hf _ => hf.step e
  clear h
  induction events generalizing f b with
  | nil =>
    rw [List.countP_nil, List.countP_nil, Nat.add_zero, Nat.le_zero] at hresumed
    exact ⟨[], [], b, rfl, hb, holder_none_of_toGo hresumed⟩
  | cons e events ih =>
    cases hd : b.holder with
    | none => exact ⟨[], e :: events, b, rfl, hb, hd⟩
    | some d =>
      obtain ⟨b', hb', hle⟩ := toGo_step hidle hb hd e
      rw [List.countP_cons, List.countP_cons] at hresumed
      obtain ⟨past, rest, c, hsplit, hc, hnone⟩ := ih (f.step e) b' hb' (by omega) (hidle.step e)
      exact ⟨e :: past, rest, c, by rw [List.cons_append, hsplit], hc, hnone⟩

/-- A drain is suspended in the PUBACK of its only message, a second message arrives, and it
    is resumed twice. -/
theorem drain_ends_drainRun :
    ((drainRun.take 6).foldl step (fresh 10 (fun _ => 0) true)).buffers.map Buffered.toGo = [1] ∧
    ∃ past rest b', past ++ rest = drainRun.drop 4 ∧
      (past.foldl step ((drainRun.take 4).foldl step (fresh 10 (fun _ => 0) true))).buffers[0]? =
        some b' ∧ b'.holder = none := by
  refine ⟨by decide +kernel, drain_ends 10 (fun _ => 0) true _
    (Reach.foldl (meets_anyStep (drainRun.take 4))) 0 _
    (List.getElem?_eq_getElem (by decide +kernel)) _ (by decide +kernel)⟩

end InboundPublishFlow

end Zmqtt
