/-
  No lost wake-up. The replay buffer is served by `drain()` alone, which is called after a
  SUBACK and after a consumer took a message out of its queue. A message that could be
  delivered must not stay behind once those calls are through: when nothing has changed since
  the last call and no task waits for the lock or is inside it, every message held has no
  recipient or a recipient whose queue is full (`no_lost_wakeup`).

  A drain that is cancelled may leave such messages to the next call, and counts as a change.
  A message is held behind one of its topic although its own recipient has room; with one
  subscription identifier for each topic, both have the same recipient.
-/
import Zmqtt.Inbound.DrainEnds
import Zmqtt.Inbound.Answers

namespace Zmqtt

/-- The message asks for an acknowledgement and has no id to name in it. -/
def lacksId (m : Received) : Bool := m.packet.qos ≠ .atMostOnce ∧ m.packet.packetId = none

/-- The subscription identifier of a PUBLISH. -/
def identifierOf (packet : Publish) : Option Int :=
  packet.properties.bind fun p => p.subscriptionIdentifier

/-- A PUBLISH of the broker: above QoS 0 it has a packet id, and its subscription identifier
    is the one of its topic. -/
structure FromBroker (identifier : String → Option Int) (packet : Publish) : Prop where
  id : packet.qos ≠ .atMostOnce → packet.packetId ≠ none
  identifier : identifierOf packet = identifier packet.topic

theorem FromBroker.lacksId {identifier : String → Option Int} {m : Received}
    (h : FromBroker identifier m.packet) : lacksId m = false :=
  decide_eq_false fun hl => h.id hl.1 hl.2

namespace InboundPublishFlow

variable {f f' : InboundPublishFlow} {env : Environment} {m : Received} {acts : List Act}
  {i : Nat} {b b' : Buffered} {d : Delivery} {air air' : List Received}

/-! ## The messages that are held -/

/-- What `accept` finds when it takes a message in: no subscription, or a topic on which
    messages are held. -/
def Blocked (f : InboundPublishFlow) (m : Received) : Prop :=
  (f.selectSubscription m.packet).recipient = none ∨ ∃ i b, f.replay = .buffered i ∧
    f.buffers[i]? = some b ∧ b.topics.get? m.packet.topic ≠ none

theorem selectRecipientOrBuffer_held
    (h : f.selectRecipientOrBuffer env m = (f', .buffered)) : TakesIn f m f' ∧ f.Blocked m := by
  refine ⟨?_, ?_⟩
  · rcases f.selectRecipientOrBuffer_cases env m with he | ⟨f₁, he, htakes⟩ | he | he <;>
      rw [he] at h <;> cases h
    exact htakes
  · -- a request would have taken the message
    have hselect : (f.selectRecipient env m).request = none →
        (f.selectRecipient env m).subscription = (f.selectSubscription m.packet).recipient := by
      unfold selectRecipient
      split
      · intro hno; cases hno
      · exact fun _ => rfl
    unfold selectRecipientOrBuffer at h
    dsimp only at h
    split at h
    · cases h
    · split at h
      · next hnobody =>
        rw [InboundRecipient.isNobody, Bool.and_eq_true, Option.isNone_iff_eq_none,
          Option.isNone_iff_eq_none] at hnobody
        exact Or.inl ((hselect hnobody.1).symm.trans hnobody.2)
      · cases h
    · next i hreplay =>
      split at h
      · cases h
      · next b hb =>
        unfold Buffered.accept at h
        split_ifs at h with hreq hsub hknown hfull
        · cases h
        · cases h
        · cases h
        · cases h
        · rw [Option.isSome_iff_ne_none, not_not] at hreq
          by_cases hnone : (f.selectRecipient env m).subscription = none
          · exact Or.inl ((hselect hreq).symm.trans hnone)
          · refine Or.inr ⟨i, b, hreplay, hb, fun htopic => hsub ⟨?_, ?_⟩⟩
            · exact Option.isSome_iff_ne_none.2 hnone
            · exact Option.isNone_iff_eq_none.2 htopic

theorem selectRecipientOrBuffer_objects {accepted : Accepted}
    (h : f.selectRecipientOrBuffer env m = (f', accepted)) :
    f'.buffers = f.buffers ∨ (TakesIn f m f' ∧ f.Blocked m) := by
  rcases f.selectRecipientOrBuffer_cases env m with he | ⟨f₁, he, -⟩ | he | he
  · rw [he] at h; cases h; exact Or.inl rfl
  · have heq := h
    rw [he] at heq
    cases heq
    exact Or.inr (selectRecipientOrBuffer_held h)
  · rw [he] at h; cases h; exact Or.inl rfl
  · rw [he] at h; cases h; exact Or.inl rfl

theorem acceptQos2Publish_buffers {r : InboundRecipient}
    (h : f.acceptQos2Publish m r = .ok (f', acts)) : f'.buffers = f.buffers := by
  unfold acceptQos2Publish at h
  split at h
  · cases h
  · dsimp only at h
    split at h <;> cases h <;> rfl

/-- What `handle_publish` does to the objects: nothing, or it takes in a blocked message. -/
theorem handlePublish_held (h : f.handlePublish env m = .ok (f', acts)) :
    f'.buffers = f.buffers ∨ (TakesIn f m f' ∧ f.Blocked m) := by
  unfold handlePublish at h
  split at h
  · split at h
    · next hs => cases h; exact selectRecipientOrBuffer_objects hs
    · next hs => cases h; exact selectRecipientOrBuffer_objects hs
    · next hs => cases h; exact selectRecipientOrBuffer_objects hs
    · cases h
  · unfold handleQos1Publish at h
    split at h
    · cases h
    · split at h
      · cases h; exact Or.inl rfl
      · split at h
        · next f₁ r hs =>
          cases hd : deliverQos1Publish m r with
          | error e => rw [hd] at h; cases h
          | ok acts' => rw [hd] at h; cases h; exact selectRecipientOrBuffer_objects hs
        · next hs => cases h; exact selectRecipientOrBuffer_objects hs
        · next hs => cases h; exact selectRecipientOrBuffer_objects hs
        · cases h
  · unfold handleQos2Publish at h
    split at h
    · cases h
    · split at h
      · cases h; exact Or.inl rfl
      · split at h
        · cases h; exact Or.inl rfl
        · split at h
          · next f₁ r hs =>
            rcases f.selectRecipientOrBuffer_cases env m with he | ⟨f₂, he, -⟩ | he | he <;>
              rw [he] at hs <;> cases hs
            exact Or.inl (acceptQos2Publish_buffers h)
          · next hs => cases h; exact selectRecipientOrBuffer_objects hs
          · next hs => cases h; exact selectRecipientOrBuffer_objects hs
          · cases h

/-! ## A stretch without exceptions -/

/-- The task on object `i` has the messages `air` in hand: they and those of the object are
    counted, and have the ids they need. -/
structure Sound (f : InboundPublishFlow) (i : Nat) (air : List Received) : Prop where
  accounts : f.Accounts (only i air)
  ids : ∀ m ∈ air ++ f.publishes i, lacksId m = false

theorem Sound.perm (h : Sound f i air) (hperm : air.Perm air') : Sound f i air' :=
  ⟨h.accounts.perm hperm, fun m hm => h.ids m ((hperm.append_right _).mem_iff.2 hm)⟩

theorem Sound.handsOn {r : InboundRecipient} (h : Sound f i air) (hands : HandsOn f r f') :
    Sound f' i air := by
  refine ⟨h.accounts.congr hands.buffers hands.replay, ?_⟩
  rw [publishes, hands.buffers]
  exact h.ids

/-- `_discard` finds the topic of a message that is in hand. -/
theorem Sound.discard (h : Sound f i (m :: air)) (hb : f.Unlocked i b) :
    (b.discard m).2 = true ∧ Sound (f.setBuffer i (b.discard m).1) i air := by
  have hok := (h.accounts i b hb.1).1
  rw [only_self] at hok
  refine ⟨(hok.perm List.perm_middle).discard.1, h.accounts.discard hb, fun m' hm' => ?_⟩
  rw [publishes_setBuffer hb.1, publishes_discard, ← publishes_of_unlocked hb] at hm'
  exact h.ids m' (List.mem_cons_of_mem _ hm')

theorem Sound.refill (h : Sound f i air) (hb : f.Unlocked i b) :
    Sound (f.setBuffer i { b with publishes := [] }) i (air ++ b.publishes) := by
  refine ⟨(accounts_drainRule i).refill f b air h.accounts hb, ?_⟩
  rw [publishes_setBuffer hb.1, List.append_nil, ← publishes_of_unlocked hb]
  exact h.ids

/-- A message with the id it needs is delivered without a `ValueError`. -/
theorem deliverReplay_ok (r : InboundRecipient) (h : lacksId m = false) :
    ∃ f' rest, f.deliverReplay env m r = .ok (f', rest) := by
  have hid : m.packet.qos ≠ .atMostOnce → ∃ pid, m.packet.packetId = some pid := by
    intro hqos
    refine Option.ne_none_iff_exists'.1 fun hnone => ?_
    exact of_decide_eq_false h ⟨hqos, hnone⟩
  unfold deliverReplay
  split
  · exact ⟨_, _, rfl⟩
  · next hqos =>
    obtain ⟨pid, hpid⟩ := hid (by rw [hqos]; simp)
    simp only [deliverQos1Publish, hpid]
    split <;> exact ⟨_, _, rfl⟩
  · next hqos =>
    obtain ⟨pid, hpid⟩ := hid (by rw [hqos]; simp)
    simp only [acceptQos2Publish, hpid]
    split <;> exact ⟨_, _, rfl⟩

/-- What a task keeps of the messages it sets aside. -/
structure StretchRule (X : InboundPublishFlow → List Received → Prop) (env : Environment)
    (i : Nat) : Prop where
  setAside : ∀ f unmatched m, X f unmatched → f.mustWait (f.selectRecipient env m) = true →
    X f (unmatched ++ [m])
  refill : ∀ f b unmatched, X f unmatched → f.Unlocked i b →
    X (f.setBuffer i { b with publishes := [] }) unmatched
  handsOn : ∀ f f' r unmatched, X f unmatched → HandsOn f r f' → X f' unmatched
  discarded : ∀ f b unmatched m, X f unmatched → f.Unlocked i b →
    X (f.setBuffer i (b.discard m).1) unmatched

/-- Where a stretch stops: in a delivery, or at the end, and never with an exception. -/
def StopsSound (X : InboundPublishFlow → List Received → Prop) (i : Nat)
    (publishes : List Received) (result : InboundPublishFlow × PassResult) : Prop :=
  (∃ b, result.1.Unlocked i b ∧ b.publishes = publishes) ∧
    match result.2 with
    | .suspended unmatched pending m rest =>
        Sound result.1 i (m :: (unmatched ++ pending)) ∧ X result.1 unmatched ∧ rest = []
    | .finished unmatched => Sound result.1 i unmatched ∧ X result.1 unmatched
    | .failed _ _ => False

section StretchRule

variable {X : InboundPublishFlow → List Received → Prop} {unmatched pending : List Received}

theorem StretchRule.deliverPass (rule : StretchRule X env i) (hb : f.Unlocked i b)
    (h : Sound f i (unmatched ++ pending)) (hx : X f unmatched) :
    StopsSound X i b.publishes (deliverPass env i unmatched pending f) := by
  induction pending generalizing unmatched f b with
  | nil =>
    rw [List.append_nil] at h
    exact ⟨⟨b, hb, rfl⟩, h, hx⟩
  | cons m pending ih =>
    rw [InboundPublishFlow.deliverPass]
    split
    · next hwait =>
      refine ih hb ?_ (rule.setAside f unmatched m hx hwait)
      rw [List.append_assoc]
      exact h
    · next hroom =>
      rw [Bool.not_eq_true] at hroom
      have hm := f.message_selectRecipient env m
      have hair := h.perm List.perm_middle
      have hid : lacksId m = false := h.ids m (by simp)
      obtain ⟨f₁, rest, hd⟩ : ∃ f' rest,
          f.deliverReplay env m (f.selectRecipient env m) = .ok (f', rest) :=
        deliverReplay_ok _ hid
      obtain ⟨hands, hrest⟩ := deliverReplay_cases hroom (by rw [hm]; exact hd)
      have hb' : f₁.Unlocked i b := by rw [Unlocked, hands.buffers]; exact hb
      have hx' := rule.handsOn f f₁ _ unmatched hx hands
      rw [hd]
      cases rest with
      | some rest => exact ⟨⟨b, hb', rfl⟩, hair.handsOn hands, hx', hrest⟩
      | none =>
        obtain ⟨hfound, hsound⟩ := (hair.handsOn hands).discard hb'
        simp only [InboundPublishFlow.discard, hb'.1, hfound]
        have hstop := ih (hb'.discard m) hsound (rule.discarded f₁ b unmatched m hx' hb')
        rw [publishes_discard] at hstop
        exact hstop

theorem StretchRule.deliverPending (rule : StretchRule X env i)
    (unmatched pending : List Received) (hb : f.Unlocked i b)
    (h : Sound f i (unmatched ++ pending)) (hx : X f unmatched) :
    (∃ ps, StopsSound X i ps (f.deliverPending env i unmatched pending)) ∧
      ∀ f' unmatched', f.deliverPending env i unmatched pending = (f', .finished unmatched') →
        f'.publishes i = [] := by
  have hpass := rule.deliverPass hb h hx
  unfold InboundPublishFlow.deliverPending
  split
  · next f₁ unmatched₁ heq =>
    rw [heq] at hpass
    obtain ⟨⟨b₁, hb₁, -⟩, hsound, hx₁⟩ := hpass
    simp only [publishes_of_unlocked hb₁, setPublishes, hb₁.1]
    have htaken : (f₁.setBuffer i { b₁ with publishes := [] }).Unlocked i
        { b₁ with publishes := [] } := hb₁.setBuffer hb₁.2
    have hsecond := rule.deliverPass htaken (hsound.refill hb₁)
      (rule.refill f₁ b₁ unmatched₁ hx₁ hb₁)
    refine ⟨⟨_, hsecond⟩, fun f' unmatched' hfinished => ?_⟩
    rw [hfinished] at hsecond
    obtain ⟨⟨b₂, hb₂, hnil⟩, -⟩ := hsecond
    rw [publishes_of_unlocked hb₂, hnil]
  · next hno =>
    refine ⟨⟨_, hpass⟩, fun f' unmatched' hfinished => ?_⟩
    exact absurd hfinished (hno f' unmatched')

end StretchRule

/-! ## Messages that have to wait -/

/-- The message has no subscription, or one whose queue is full. -/
def MustWait (f : InboundPublishFlow) (m : Received) : Prop :=
  ∀ item, (f.selectSubscription m.packet).recipient = some item → f.queueFull item.2.queue = true

theorem waits_of_mustWait (h : f.mustWait (f.selectRecipient env m) = true) : f.MustWait m := by
  intro item hitem
  cases hclaim : env.claim m.num with
  | some request =>
    rw [mustWait_of_claim (by rw [hclaim]; simp)] at h
    cases h
  | none =>
    rw [selectRecipient, hclaim, mustWait, InboundRecipient.isNobody] at h
    simp only [hitem] at h
    exact h

theorem MustWait.fuller (h : f.MustWait m) (hfuller : Fuller f f') : f'.MustWait m := by
  intro item hitem
  rw [selectSubscription, hfuller.subscriptions] at hitem
  exact hfuller.full _ (h item hitem)

/-- Messages of one topic with the same identifier have the same subscription. -/
theorem MustWait.same {m' : Received} (h : f.MustWait m) (htopic : m'.packet.topic = m.packet.topic)
    (hid : identifierOf m'.packet = identifierOf m.packet) : f.MustWait m' := by
  intro item hitem
  refine h item ?_
  rw [← hitem]
  unfold identifierOf at hid
  simp only [selectSubscription, htopic, hid]

/-- Something is owed to the messages `ms`, or a task waits for the lock, or all of them have
    to wait. -/
def Settled (owed : Bool) (f : InboundPublishFlow) (waiters : List Caller) (ms : List Received) :
    Prop :=
  owed = true ∨ waiters ≠ [] ∨ ∀ m ∈ ms, f.MustWait m

variable {owed : Bool} {waiters : List Caller} {ms : List Received}

theorem Settled.fuller (h : Settled owed f waiters ms) (hfuller : Fuller f f') :
    Settled owed f' waiters ms :=
  h.imp id (Or.imp id fun hms m hm => (hms m hm).fuller hfuller)

theorem settled_nil (owed : Bool) (f : InboundPublishFlow) (waiters : List Caller) :
    Settled owed f waiters [] :=
  Or.inr (Or.inr fun _ hm => absurd hm List.not_mem_nil)

end InboundPublishFlow

/-- The messages of an object that its tasks have left where they are: all of them, or those
    that the task inside the lock has set aside. -/
def Buffered.aside (b : Buffered) : List Received :=
  match b.holder with
  | none => b.publishes
  | some d => d.unmatched

theorem aside_of_holder_none {b : Buffered} (h : b.holder = none) : b.aside = b.publishes := by
  rw [Buffered.aside, h]

theorem aside_of_holder {b : Buffered} {d : Delivery} (h : b.holder = some d) :
    b.aside = d.unmatched := by
  rw [Buffered.aside, h]

namespace InboundPublishFlow

variable {f f' : InboundPublishFlow} {env : Environment} {m : Received} {acts : List Act}
  {i : Nat} {b b' : Buffered} {d : Delivery} {air : List Received} {owed : Bool}

theorem aside_subset_owned (b : Buffered) : b.aside ⊆ b.owned := by
  intro m hm
  unfold Buffered.aside at hm
  unfold Buffered.owned
  cases hd : b.holder with
  | none => rw [hd] at hm; exact List.mem_append_left _ hm
  | some d =>
    rw [hd] at hm
    refine List.mem_append_right _ ?_
    exact List.mem_append_left _ (List.mem_append_left _ hm)

/-- No object holds back a message that could be delivered. -/
def AtRest (owed : Bool) (f : InboundPublishFlow) : Prop :=
  ∀ (j : Nat) (b : Buffered), f.buffers[j]? = some b → Settled owed f b.waiters b.aside

theorem AtRest.fuller (h : AtRest owed f) (hfuller : Fuller f f')
    (hbuffers : f'.buffers = f.buffers) : AtRest owed f' := by
  intro j b hb
  rw [hbuffers] at hb
  exact (h j b hb).fuller hfuller

theorem AtRest.setBuffer (h : AtRest owed f) (hb' : Settled owed f b'.waiters b'.aside) :
    AtRest owed (f.setBuffer i b') := by
  intro j c hc
  by_cases hij : i = j
  · subst hij
    by_cases hlt : i < f.buffers.length
    · have hself : (f.buffers.set i b')[i]? = some b' := List.getElem?_set_self hlt
      obtain rfl := Option.some.inj (hself.symm.trans hc)
      exact hb'
    · have hnone : (f.buffers.set i b')[i]? = none := by
        rw [List.getElem?_eq_none_iff, List.length_set]
        exact Nat.le_of_not_lt hlt
      cases hnone.symm.trans hc
  · exact h j c ((List.getElem?_set_ne hij).symm.trans hc)

/-! ## Drains -/

/-- While a task works on object `i` with the messages `unmatched` set aside. -/
def SettledBut (owed : Bool) (i : Nat) (f : InboundPublishFlow) (unmatched : List Received) :
    Prop :=
  ∀ (j : Nat) (b : Buffered), f.buffers[j]? = some b →
    Settled owed f b.waiters (if j = i then unmatched else b.aside)

theorem SettledBut.setBuffer {unmatched : List Received} (h : SettledBut owed i f unmatched)
    (hb : f.buffers[i]? = some b) (hwaiters : b'.waiters = b.waiters) :
    SettledBut owed i (f.setBuffer i b') unmatched := by
  intro j c hc
  by_cases hij : i = j
  · subst hij
    obtain rfl := Option.some.inj ((getElem?_setBuffer hb b').symm.trans hc)
    have hi := h i b hb
    rw [if_pos rfl] at hi ⊢
    rw [hwaiters]
    exact hi
  · exact h j c ((List.getElem?_set_ne hij).symm.trans hc)

theorem settledBut_rule (owed : Bool) (env : Environment) (i : Nat) :
    StretchRule (SettledBut owed i) env i where
  setAside f unmatched m h hwait := by
    intro j b hb
    have hj := h j b hb
    split at hj
    · next hij =>
      rw [if_pos hij]
      refine hj.imp id (Or.imp id fun hms m' hm' => ?_)
      rcases List.mem_append.1 hm' with hm' | hm'
      · exact hms m' hm'
      · rw [List.mem_singleton.1 hm']
        exact waits_of_mustWait hwait
    · next hij =>
      rw [if_neg hij]
      exact hj
  refill f b unmatched h hb := h.setBuffer hb.1 rfl
  handsOn f f' r unmatched h hands := by
    intro j b hb
    rw [hands.buffers] at hb
    exact (h j b hb).fuller hands.fuller
  discarded f b unmatched m h hb := by
    refine h.setBuffer hb.1 ?_
    unfold Buffered.discard
    split <;> rfl

/-- Where a task stops, it leaves nothing behind that could be delivered. -/
theorem SettledBut.atRest {unmatched : List Received} (h : SettledBut owed i f unmatched)
    (hb : f.buffers[i]? = some b) (hb' : Settled owed f b'.waiters b'.aside) :
    AtRest owed (f.setBuffer i b') := by
  intro j c hc
  by_cases hij : i = j
  · subst hij
    obtain rfl := Option.some.inj ((getElem?_setBuffer hb b').symm.trans hc)
    exact hb'
  · have hj := h j c ((List.getElem?_set_ne hij).symm.trans hc)
    rw [if_neg (Ne.symm hij)] at hj
    exact hj

theorem AtRest.leaveBuffer (h : AtRest owed f) (i : Nat) (next : ReplayState) :
    AtRest owed (f.leaveBuffer i next) := by
  obtain ⟨replay, he⟩ := f.leaveBuffer_eq i next
  rw [he]
  exact h

theorem atRest_settle {ps : List Received} {result : PassResult} (caller : Caller)
    (h : StopsSound (SettledBut owed i) i ps (f, result))
    (hfinished : ∀ unmatched, result = .finished unmatched → f.publishes i = []) :
    AtRest owed (f.settle i caller result) := by
  obtain ⟨⟨b, hb, -⟩, h⟩ := h
  simp only [settle, hb.1]
  cases result with
  | failed unmatched pending => exact h.elim
  | suspended unmatched pending m rest =>
    obtain ⟨-, hx, -⟩ := h
    refine hx.atRest hb.1 ?_
    have hi := hx i b hb.1
    rw [if_pos rfl] at hi
    exact hi
  | finished unmatched =>
    obtain ⟨hsound, hx⟩ := h
    have hi := hx i b hb.1
    rw [if_pos rfl] at hi
    have hnil := hfinished unmatched rfl
    rw [publishes_of_unlocked hb] at hnil
    have hput : (b.putBack unmatched).publishes = unmatched := by
      rw [Buffered.putBack, hnil, List.append_nil]
    cases caller with
    | drain =>
      dsimp only
      unfold finishDrain
      split
      · next hzero =>
        -- the counter is right, so that nothing is left
        have hcount := (hsound.accounts i b hb.1).1.count
        rw [only_self, owned_of_holder_none hb.2, hnil, List.nil_append] at hcount
        have hempty : unmatched = [] := by
          refine List.length_eq_zero_iff.1 (Int.ofNat_inj.1 ?_)
          exact hcount.symm.trans hzero
        refine (hx.atRest hb.1 ?_).leaveBuffer i .idle
        have haside : (b.putBack unmatched).cancelExpiration.aside = [] := by
          have hnone : (b.putBack unmatched).cancelExpiration.holder = none := by
            unfold Buffered.cancelExpiration
            split <;> rfl
          rw [aside_of_holder_none hnone, (sameContents_cancelExpiration _).publishes, hput, hempty]
        rw [haside]
        exact settled_nil _ _ _
      · refine hx.atRest hb.1 ?_
        rw [aside_of_holder_none rfl, hput]
        exact hi
    | expire =>
      have hdropped : SettledBut owed i (f.logDropped (b.putBack unmatched).publishes) unmatched :=
        hx
      refine (hdropped.atRest hb.1 ?_).leaveBuffer i _
      have hnone : ((b.putBack unmatched).empty.endExpiration .expire).aside = [] := rfl
      rw [hnone]
      exact settled_nil _ _ _

/-! ## Packets -/

section Held

variable {identifier : String → Option Int}

/-- What the objects and the tasks inside their locks own came from the broker. -/
def OwnsFrom (identifier : String → Option Int) (f : InboundPublishFlow) : Prop :=
  ∀ b ∈ f.buffers, ∀ m ∈ b.owned, FromBroker identifier m.packet

/-- A message that is taken in has to wait, as the one does that it is held behind. -/
theorem AtRest.takesIn (h : AtRest owed f) (hacc : f.Accounts fun _ => [])
    (hheld : OwnsFrom identifier f) (hm : FromBroker identifier m.packet) (htakes : TakesIn f m f')
    (hblocked : f.Blocked m) : AtRest owed f' := by
  have hnone : (f.selectSubscription m.packet).recipient = none → f.MustWait m := by
    intro hno item hitem
    rw [hno] at hitem
    cases hitem
  cases htakes with
  | new hreplay =>
    have hwaits : f.MustWait m := by
      rcases hblocked with hno | ⟨i, b, hcur, -⟩
      · exact hnone hno
      · rw [hreplay] at hcur
        cases hcur
    intro j c hc
    rw [List.getElem?_append] at hc
    split at hc
    · exact (h j c hc).fuller ⟨rfl, fun _ => id⟩
    · rw [List.getElem?_singleton] at hc
      split at hc
      · obtain rfl := Option.some.inj hc
        refine Or.inr (Or.inr fun m' hm' => ?_)
        rw [List.mem_singleton.1 hm']
        exact hwaits.fuller ⟨rfl, fun _ => id⟩
      · cases hc
  | old i b hreplay hb _ _ =>
    have hset : AtRest owed (f.setBuffer i (b.append m)) := by
      refine h.setBuffer ?_
      have hi := h i b hb
      cases hd : b.holder with
      | some d =>
        rw [aside_of_holder hd] at hi
        rw [aside_of_holder (b := b.append m) hd]
        exact hi
      | none =>
        rw [aside_of_holder_none hd] at hi
        rw [aside_of_holder_none (b := b.append m) hd]
        refine hi.imp id (Or.imp id fun hms m' hm' => ?_)
        rcases List.mem_append.1 hm' with hm' | hm'
        · exact hms m' hm'
        · rw [List.mem_singleton.1 hm']
          rcases hblocked with hno | ⟨j, c, hcur, hc, htopic⟩
          · exact hnone hno
          · -- a message on the topic is held, and its subscription is the same
            rw [hreplay] at hcur
            cases hcur
            obtain rfl := Option.some.inj (hb.symm.trans hc)
            have hok := (hacc i b hb).1
            rw [owned_of_holder_none hd, List.append_nil] at hok
            rw [hok.topics] at htopic
            have hpos : 0 < b.publishes.countP (onTopic m.packet.topic) := by
              by_contra hzero
              exact htopic (if_pos (by omega))
            obtain ⟨first, hfirst, hon⟩ := List.countP_pos_iff.1 hpos
            have hsame : first.packet.topic = m.packet.topic := of_decide_eq_true hon
            have hfrom := hheld b (List.mem_of_getElem? hb) first
              (by rw [owned_of_holder_none hd]; exact hfirst)
            refine (hms first hfirst).same hsame.symm ?_
            rw [hm.identifier, hfrom.identifier, hsame]
    exact hset.fuller ⟨rfl, fun _ => id⟩ rfl

theorem Handles.fuller (h : Handles f env m f' acts) : Fuller f f' := by
  cases h with
  | takesIn htakes _ => cases htakes <;> exact ⟨rfl, fun _ => id⟩
  | _ => exact ⟨rfl, fun _ => id⟩

theorem Fuller.trans {f'' : InboundPublishFlow} (h : Fuller f f') (h' : Fuller f' f'') :
    Fuller f f'' :=
  ⟨h'.subscriptions.trans h.subscriptions, fun queue hfull => h'.full queue (h.full queue hfull)⟩

theorem fuller_runReader (f : InboundPublishFlow) (env : Environment) (acts : List Act) :
    Fuller f (f.runReader env acts) := by
  refine @runReader_induct (Fuller f) (fun f' _ => Fuller f f') ?_ ?_ ?_ ?_ env acts f
    ⟨rfl, fun _ => id⟩
  · exact fun f' kind pid r _ h => h.trans ⟨rfl, fun _ => id⟩
  · exact fun f' r callback _ h _ => h.trans (f'.fuller_handOver r callback)
  · exact fun f' h => h.trans ⟨rfl, fun _ => id⟩
  · exact fun f' _ h => h.trans ⟨rfl, fun _ => id⟩

theorem AtRest.runReader (h : AtRest owed f) (env : Environment) (acts : List Act) :
    AtRest owed (f.runReader env acts) :=
  h.fuller (f.fuller_runReader env acts) (sameTables_runReader env acts f).buffers

theorem AtRest.receivePublish {packet : Publish} (h : AtRest owed f)
    (hacc : f.Accounts fun _ => []) (hheld : OwnsFrom identifier f)
    (hpacket : FromBroker identifier packet) (env : Environment) :
    AtRest owed (f.receivePublish env packet) := by
  unfold InboundPublishFlow.receivePublish
  split
  · have hrec : AtRest owed (f.receive packet) := h.fuller ⟨rfl, fun _ => id⟩ rfl
    unfold dispatch
    split
    · exact hrec.fuller ⟨rfl, fun _ => id⟩ rfl
    · next f₁ acts hok =>
      refine AtRest.runReader ?_ env acts
      rcases handlePublish_held hok with hbuffers | ⟨htakes, hblocked⟩
      · exact hrec.fuller (handlePublish_cases hok).fuller hbuffers
      · exact hrec.takesIn (hacc.congr rfl rfl) hheld hpacket htakes hblocked
  · exact h
  · exact h

theorem AtRest.receivePubrel (h : AtRest owed f) (env : Environment) (pid : Int) :
    AtRest owed (f.receivePubrel env pid) := by
  unfold InboundPublishFlow.receivePubrel
  split
  · have hlog : AtRest owed (f.log (.pubrel pid)) := h.fuller ⟨rfl, fun _ => id⟩ rfl
    unfold dispatch
    split
    · exact hlog.fuller ⟨rfl, fun _ => id⟩ rfl
    · next f₁ acts hok =>
      refine AtRest.runReader ?_ env acts
      unfold handlePubrel at hok
      split at hok
      · cases hok
      · cases hok
        exact hlog.fuller ⟨rfl, fun _ => id⟩ rfl
  · exact h
  · exact h

/-! ## Calls -/

/-- Only the current object holds messages, and `drain()` makes a task wait for its lock. -/
theorem atRest_drain (hacc : f.Accounts fun _ => []) : AtRest false f.drain := by
  have hleft : ∀ (j : Nat) (b : Buffered), f.buffers[j]? = some b → f.replay ≠ .buffered j →
      ∀ g waiters, Settled false g waiters b.aside := by
    intro j b hb hcur g waiters
    have hnil : b.owned = [] := by
      by_contra hne
      exact hcur ((hacc j b hb).2 (by rw [List.append_nil]; exact hne))
    have haside := aside_subset_owned b
    rw [hnil] at haside
    rw [List.subset_nil.1 haside]
    exact settled_nil _ _ _
  unfold drain
  split
  · next hreplay => exact fun j b hb => hleft j b hb (by rw [hreplay]; simp) f _
  · next hreplay => exact fun j b hb => hleft j b hb (by rw [hreplay]; simp) f _
  · next i hreplay =>
    split
    · next hnone =>
      intro j b hb
      refine hleft j b hb (fun hcur => ?_) f _
      rw [hreplay] at hcur
      cases hcur
      rw [hnone] at hb
      cases hb
    · next b hb =>
      intro j c hc
      by_cases hij : i = j
      · subst hij
        obtain rfl := Option.some.inj ((getElem?_setBuffer hb _).symm.trans hc)
        exact Or.inr (Or.inl (List.append_ne_nil_of_right_ne_nil _ (List.cons_ne_nil _ _)))
      · have hc' := (List.getElem?_set_ne hij).symm.trans hc
        refine hleft j c hc' (fun hcur => ?_) _ _
        rw [hreplay] at hcur
        cases hcur
        exact hij rfl

theorem AtRest.expireReplay (h : AtRest owed f) (i : Nat) : AtRest owed (f.expireReplay i) := by
  unfold InboundPublishFlow.expireReplay
  split
  · exact h
  · next b hb =>
    split
    · split
      · refine h.setBuffer (Or.inr (Or.inl ?_))
        exact List.append_ne_nil_of_right_ne_nil _ (List.cons_ne_nil _ _)
      · exact h.setBuffer (h i b hb)
    · exact h

/-- A task that takes the lock looks at every message. -/
theorem AtRest.acquireLock (h : AtRest owed f) (hacc : f.Accounts fun _ => [])
    (hheld : OwnsFrom identifier f) (env : Environment) (i : Nat) :
    AtRest owed (f.acquireLock env i) := by
  unfold InboundPublishFlow.acquireLock
  split
  · exact h
  · next b hb =>
    split
    · next caller waiters hholder _ =>
      have hfree : (f.setBuffer i { b with waiters }).Unlocked i { b with waiters } :=
        ⟨getElem?_setBuffer hb _, hholder⟩
      have hsound : Sound (f.setBuffer i { b with waiters }) i [] := by
        refine ⟨(accounts_drainRule i).start f b waiters hacc hb hholder, fun m hm => ?_⟩
        rw [publishes_setBuffer hb, List.nil_append] at hm
        refine (hheld b (List.mem_of_getElem? hb) m ?_).lacksId
        rw [owned_of_holder_none hholder]
        exact hm
      have hbut : SettledBut owed i (f.setBuffer i { b with waiters }) [] := by
        intro j c hc
        split
        · exact settled_nil _ _ _
        · next hij => exact h j c ((List.getElem?_set_ne (Ne.symm hij)).symm.trans hc)
      obtain ⟨⟨ps, hstop⟩, hfinished⟩ :=
        (settledBut_rule owed env i).deliverPending [] [] hfree hsound hbut
      exact atRest_settle caller hstop fun unmatched he =>
        hfinished _ unmatched (Prod.ext rfl he)
    · exact h

/-- A task that goes on has set aside nothing that could be delivered. -/
theorem AtRest.resumeDelivery (h : AtRest owed f) (hidle : f.IdleRest)
    (hacc : f.Accounts fun _ => []) (hheld : OwnsFrom identifier f) (env : Environment)
    (hgoes : ∀ b d, f.buffers[i]? = some b → b.holder = some d → d.cancelled = false) :
    AtRest owed (f.resumeDelivery env i) := by
  unfold InboundPublishFlow.resumeDelivery
  split
  · exact h
  · next b hb =>
    split
    · exact h
    · next d hd =>
      have hfree : (f.setBuffer i { b with holder := none }).Unlocked i { b with holder := none } :=
        ⟨getElem?_setBuffer hb _, rfl⟩
      have hsound : Sound (f.setBuffer i { b with holder := none }) i
          (d.current :: (d.unmatched ++ d.pending)) := by
        refine ⟨hacc.wake hb hd, fun m hm => (hheld b (List.mem_of_getElem? hb) m ?_).lacksId⟩
        rw [publishes_setBuffer hb] at hm
        rw [Buffered.owned, hd]
        simp only [List.cons_append, List.mem_cons, List.mem_append] at hm ⊢
        tauto
      have hbut : SettledBut owed i (f.setBuffer i { b with holder := none }) d.unmatched := by
        intro j c hc
        by_cases hij : i = j
        · subst hij
          obtain rfl := Option.some.inj ((getElem?_setBuffer hb _).symm.trans hc)
          have hi := h i b hb
          rw [aside_of_holder hd] at hi
          rw [if_pos rfl]
          exact hi
        · rw [if_neg (Ne.symm hij)]
          exact h j c ((List.getElem?_set_ne hij).symm.trans hc)
      obtain ⟨hfound, hrest⟩ := hsound.discard hfree
      rw [if_neg (by rw [hgoes b d hb hd]; exact Bool.false_ne_true),
        hidle b (List.mem_of_getElem? hb) d hd, runActs]
      simp only [InboundPublishFlow.discard, hfree.1, hfound]
      have rule := settledBut_rule owed env i
      obtain ⟨⟨ps, hstop⟩, hfinished⟩ := rule.deliverPending _ _ (hfree.discard d.current) hrest
        (rule.discarded _ _ _ d.current hbut hfree)
      exact atRest_settle d.caller hstop fun unmatched he =>
        hfinished _ unmatched (Prod.ext rfl he)

end Held

/-! ## Runs -/

/-- The event gives a held message room or a recipient, or takes a task out of its way: it is
    then up to the next `drain()`. -/
def changes (f : InboundPublishFlow) : InboundEvent → Bool
  | .get _ | .subscriptions _ | .cancelWaiter _ _ | .interruptDelivery _ => true
  | .resumeDelivery i _ => (f.buffers[i]?.bind fun b => b.holder).any fun d => d.cancelled
  | _ => false

/-- A connection, and whether something has changed since the last call of `drain()`. -/
structure Owing where
  flow : InboundPublishFlow
  owed : Bool := false

namespace Owing

def step (w : Owing) (e : InboundEvent) : Owing :=
  { flow := w.flow.step e
    owed :=
      match e with
      | .drain => false
      | e => w.owed || w.flow.changes e }

/-- The broker gives the messages of a topic one subscription identifier, and `clear` is called
    when the read loop has ended, as `run` does. -/
def Served (identifier : String → Option Int) (w : Owing) (e : InboundEvent) : Prop :=
  Hears (FromBroker identifier) w.flow e ∧ (e = .clear → w.flow.reader.isStopped = true)

variable {identifier : String → Option Int} {w : Owing}

/-- What an object and its tasks own was received. -/
theorem owned_backed {trace : List TraceEntry} {b : Buffered} (h : b.Backed trace) {m : Received}
    (hm : m ∈ b.owned) : .publish m ∈ trace := by
  unfold Buffered.owned at hm
  rcases List.mem_append.1 hm with hm | hm
  · exact h.publishes m hm
  · cases hd : b.holder with
    | none => rw [hd] at hm; exact absurd hm List.not_mem_nil
    | some d =>
      rw [hd] at hm
      refine (h.holder d hd).1 m ?_
      simp only [List.mem_append, List.mem_cons] at hm ⊢
      tauto

/-- What is owed stays owed, except by `drain()`. -/
theorem owed_step {e : InboundEvent} (he : e ≠ .drain) :
    (w.step e).owed = (w.owed || w.flow.changes e) := by
  cases e with
  | drain => exact absurd rfl he
  | _ => rfl

/-- After a change there is nothing to show. -/
theorem atRest_of_changes {e : InboundEvent} (he : w.flow.changes e = true)
    (f : InboundPublishFlow) : AtRest (w.owed || w.flow.changes e) f := by
  intro j b _
  rw [he, Bool.or_true]
  exact Or.inl rfl

theorem atRest_step {e : InboundEvent} (hidle : w.flow.IdleRest)
    (hacc : w.flow.Accounts fun _ => []) (hheld : OwnsFrom identifier w.flow)
    (h : AtRest w.owed w.flow) (hears : Hears (FromBroker identifier) w.flow e)
    (hclear : e ≠ .clear) : AtRest (w.step e).owed (w.step e).flow := by
  have hsame : ∀ {f : InboundPublishFlow}, AtRest w.owed f →
      AtRest (w.owed || false) f := fun hf => by rw [Bool.or_false]; exact hf
  cases e with
  | publish packet env => exact hsame (h.receivePublish hacc hheld (hears packet env rfl) env)
  | pubrel pid env => exact hsame (h.receivePubrel env pid)
  | resumeReader env =>
    refine hsame ?_
    change AtRest w.owed (w.flow.resumeReader env)
    unfold resumeReader
    split
    · next acts _ => exact h.runReader env acts
    all_goals exact h
  | interruptReader =>
    refine hsame ?_
    change AtRest w.owed w.flow.interruptReader
    unfold interruptReader
    split
    · exact h
    all_goals exact h.fuller ⟨rfl, fun _ => id⟩ rfl
  | ack k =>
    refine hsame ?_
    change AtRest w.owed (w.flow.ack k)
    rcases w.flow.ack_cases k with
      he | ⟨message, _, _, ⟨he, -⟩ | ⟨pid, r, -, he⟩ | ⟨pid, r, _, he⟩⟩ <;> rw [he]
    · exact h
    all_goals exact h.fuller ⟨rfl, fun _ => id⟩ rfl
  | get queue => exact atRest_of_changes rfl _
  | subscriptions index => exact atRest_of_changes rfl _
  | cancelWaiter i k => exact atRest_of_changes rfl _
  | interruptDelivery i => exact atRest_of_changes rfl _
  | drain => exact atRest_drain hacc
  | expire i => exact hsame (h.expireReplay i)
  | acquireLock i env => exact hsame (h.acquireLock hacc hheld env i)
  | resumeDelivery i env =>
    by_cases hgoes : ∀ b d, w.flow.buffers[i]? = some b → b.holder = some d → d.cancelled = false
    · have hrest := h.resumeDelivery hidle hacc hheld env hgoes
      intro j b hb
      exact (hrest j b hb).imp (fun ho => by rw [owed_step (by simp), ho, Bool.true_or]) id
    · push Not at hgoes
      obtain ⟨b, d, hb, hd, hc⟩ := hgoes
      refine atRest_of_changes ?_ _
      simp only [changes, hb, Option.bind_some, hd, Option.any_some]
      exact Bool.eq_true_of_not_eq_false hc
  | clear => exact absurd rfl hclear

/-- **No lost wake-up.** In every run of a connection whose read loop goes on, when nothing has
    changed since the last call of `drain()` and no task waits for the lock of an object or is
    inside it, every message that the object holds has no subscription or one whose queue is
    full. -/
theorem no_lost_wakeup (identifier : String → Option Int) (bufferSize : Nat)
    (maxsize : Nat → Nat) (sessionPresent : Bool) (w : Owing)
    (h : Reach step (Served identifier) { flow := fresh bufferSize maxsize sessionPresent } w)
    (hreading : w.flow.reader.isStopped = false) (howed : w.owed = false) (b : Buffered)
    (hb : b ∈ w.flow.buffers) (hlock : b.holder = none) (hwaiters : b.waiters = []) :
    ∀ m ∈ b.publishes, w.flow.MustWait m := by
  have hinv : w.flow.IdleRest ∧ (w.flow.Live fun _ => []) ∧
      Answering (FromBroker identifier) w.flow [] [] ∧
      (w.flow.reader.isStopped = false → AtRest w.owed w.flow) := by
    refine Reach.invariant (I := fun w => w.flow.IdleRest ∧ (w.flow.Live fun _ => []) ∧
      Answering (FromBroker identifier) w.flow [] [] ∧
      (w.flow.reader.isStopped = false → AtRest w.owed w.flow)) h
      ⟨idleRest_fresh _ _ _, live_fresh _ _ _, answering_fresh _ _ _, fun _ j b hb => (by cases hb)⟩
      fun w e hw hok => ?_
    obtain ⟨hidle, hlive, hans, hrest⟩ := hw
    refine ⟨hidle.step e, hlive.step hidle hok.2, hans.step hok.1, fun hrun => ?_⟩
    have hbefore : w.flow.reader.isStopped = false := by
      by_contra hstop
      have hstays := isStopped_step hidle (Bool.eq_true_of_not_eq_false hstop) e
      exact absurd (hstays.symm.trans hrun) (by simp)
    refine atRest_step hidle (hlive hbefore) ?_ (hrest hbefore) hok.1 fun he => ?_
    · exact fun b hb m hm => hans.trace.publish (owned_backed (hans.buffers b hb) hm)
    · have hstop := hok.2 he
      rw [hbefore] at hstop
      cases hstop
  obtain ⟨-, -, -, hrest⟩ := hinv
  obtain ⟨j, hj⟩ := List.mem_iff_getElem?.1 hb
  rcases hrest hreading j b hj with ho | hne | hms
  · rw [howed] at ho
    cases ho
  · exact absurd hwaiters hne
  · rw [aside_of_holder_none hlock] at hms
    exact hms

/-- Two messages on `a` are held when `a` is subscribed with a queue for one; a drain delivers
    the first. -/
def fullQueueRun : List InboundEvent :=
  [.publish (publishA .atLeastOnce (some 1)) {}, .publish (publishA .atLeastOnce (some 2)) {},
    .subscriptions (indexA true), .drain, .acquireLock 0 {}]

/-- The second waits for the consumer of the first. -/
theorem no_lost_wakeup_fullQueueRun :
    ((fullQueueRun.foldl step { flow := fresh 10 (fun _ => 1) true }).flow.buffers.map fun b =>
      (b.publishes.map fun m => m.packet.packetId, b.holder, b.waiters)) = [([some 2], none, [])] ∧
    ∀ b ∈ (fullQueueRun.foldl step { flow := fresh 10 (fun _ => 1) true }).flow.buffers,
      ∀ m ∈ b.publishes,
        (fullQueueRun.foldl step { flow := fresh 10 (fun _ => 1) true }).flow.MustWait m := by
  have hfree : ∀ b ∈ (fullQueueRun.foldl step { flow := fresh 10 (fun _ => 1) true }).flow.buffers,
      b.holder = none ∧ b.waiters = [] := by decide +kernel
  refine ⟨by decide +kernel, fun b hb => no_lost_wakeup (fun _ => none) 10 (fun _ => 1) true _
    (Reach.foldl ?_) (by decide +kernel) (by decide +kernel) b hb (hfree b hb).1 (hfree b hb).2⟩
  refine ⟨?_, ?_, ?_, ?_, ?_, trivial⟩ <;>
    exact ⟨fun packet env he => (by cases he <;> exact ⟨fun _ => by simp [publishA], rfl⟩),
      fun he => by cases he⟩

end Owing

end InboundPublishFlow

end Zmqtt
