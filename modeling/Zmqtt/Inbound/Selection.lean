/-
  The subscription a received PUBLISH is routed to (`_select_subscription` of
  `_internal/inbound.py`, over `select`, `select_by_identifier` and `_select_from` of
  `_internal/subscription_index.py`), in every case: with and without a subscription
  identifier, also one that nobody registered, and one whose entries all miss the topic.

  The router is stated as a choice. `Eligible` says which registrations it may choose from,
  `Precedes` orders them by rank and then by age, and the recipient is the first one
  (`routed_first`). The code never states this order: it filters, sorts and takes the head, and
  the age comes from the order of the dictionaries.
-/
import Zmqtt.Inbound.Flow
import Zmqtt.Topics.Routing

namespace Zmqtt

/-! ## The choice -/

/-- The registrations a message on `topic` with this subscription identifier may be routed to.
    Entries with the identifier go before all others; they need not match the topic when none
    of them does. -/
def Eligible (ops : List IndexOp) (topic : String) (identifier : Option Int) (item : Item) :
    Prop :=
  Registered ops item ∧
    match identifier with
    | none => MqttMatches (actualFilter item) topic
    | some i =>
        (∀ other, Registered ops other → other.2.subscriptionIdentifier ≠ some i) ∧
            MqttMatches (actualFilter item) topic ∨
          item.2.subscriptionIdentifier = some i ∧
            (MqttMatches (actualFilter item) topic ∨
              ∀ other, Registered ops other → other.2.subscriptionIdentifier = some i →
                ¬ MqttMatches (actualFilter other) topic)

/-- Of a lower rank, or of the same rank and registered no later. -/
def Precedes (latest : String → Nat) (a b : Item) : Prop :=
  specificity a < specificity b ∨ specificity a = specificity b ∧ latest a.1 ≤ latest b.1

section Choice

variable {entries : Dict String SubscriptionEntry} {m : Moments} {l : List Item}

theorem selectFrom_nil : SubscriptionIndex.selectFrom [] = { recipient := none } := rfl

/-- `_select_from` takes the first of its candidates, when those of each rank stand in the order
    of the entries. -/
theorem selectFrom_first (hord : Ordered entries m)
    (hsub : ∀ key, (l.filter fun item => specificity item = key).Sublist entries) (item : Item) :
    (SubscriptionIndex.selectFrom l).recipient = some item ↔
      item ∈ l ∧ ∀ other ∈ l, Precedes m.latest item other := by
  rcases List.eq_nil_or_concat l with rfl | ⟨_, _, hl⟩
  · rw [selectFrom_nil]
    simp
  · have hne : l ≠ [] := by
      rw [hl]
      simp
    obtain ⟨first, rest, hw, hle, hsel⟩ := selectFrom_winners hne
    have hsorted := hord.order.sublist (hsub (specificity first))
    rw [hw, List.pairwise_cons] at hsorted
    have hwinner : ∀ other, other ∈ l → specificity other = specificity first →
        other = first ∨ m.latest first.1 < m.latest other.1 := by
      intro other hother hspec
      have hmem : other ∈ first :: rest := by
        rw [← hw]
        exact List.mem_filter.2 ⟨hother, decide_eq_true hspec⟩
      rcases List.mem_cons.1 hmem with he | hrest
      · exact Or.inl he
      · exact Or.inr (hsorted.1 other hrest)
    have hfirst : first ∈ l := by
      have hmem : first ∈ l.filter fun other => specificity other = specificity first := by
        rw [hw]
        exact List.mem_cons_self
      exact (List.mem_filter.1 hmem).1
    have hprecedes : ∀ other ∈ l, Precedes m.latest first other := by
      intro other hother
      rcases lt_or_eq_of_le (hle other hother) with hlt | heq
      · exact Or.inl hlt
      · rcases hwinner other hother heq.symm with he | hlt
        · exact Or.inr ⟨heq, he ▸ Nat.le_refl _⟩
        · exact Or.inr ⟨heq, Nat.le_of_lt hlt⟩
    rw [hsel]
    constructor
    · intro he
      obtain rfl := Option.some.inj he
      exact ⟨hfirst, hprecedes⟩
    · -- two first candidates have one rank and one age
      rintro ⟨hitem, hall⟩
      rcases hall first hfirst with hlt | ⟨heq, hage⟩
      · exact absurd hlt (not_lt.2 (hle item hitem))
      · rcases hwinner item hitem heq with he | hlt
        · rw [he]
        · omega

theorem selectFrom_eq_none : (SubscriptionIndex.selectFrom l).recipient = none ↔ l = [] := by
  constructor
  · intro h
    by_contra hne
    obtain ⟨first, rest, -, -, hsel⟩ := selectFrom_winners hne
    rw [hsel] at h
    cases h
  · rintro rfl
    rfl

/-- What `_select_from` may pick from, and that it picks the first. -/
theorem selectFrom_chooses {candidates : Item → Prop} (hord : Ordered entries m)
    (hsub : ∀ key, (l.filter fun item => specificity item = key).Sublist entries)
    (hl : ∀ item, item ∈ l ↔ candidates item) :
    (∀ item, (SubscriptionIndex.selectFrom l).recipient = some item ↔
      candidates item ∧ ∀ other, candidates other → Precedes m.latest item other) ∧
    ((SubscriptionIndex.selectFrom l).recipient = none ↔ ∀ item, ¬ candidates item) := by
  refine ⟨fun item => ?_, ?_⟩
  · rw [selectFrom_first hord hsub]
    simp only [hl]
  · rw [selectFrom_eq_none, List.eq_nil_iff_forall_not_mem]
    simp only [hl]

end Choice

/-! ## The candidates -/

section Candidates

variable {ops : List IndexOp} {topic : String}

theorem mem_identified (hops : ∀ op ∈ ops, op.Valid) (i : Int) (item : Item) :
    item ∈ (SubscriptionIndex.run ops).identified i ↔
      Registered ops item ∧ item.2.subscriptionIdentifier = some i := by
  have h := represents_run hops
  rw [(Coherent.run ops).identified, List.mem_filter, decide_eq_true_eq, Registered, ← h.get,
    ← Dict.mem_iff_get? h.nodup]

theorem mem_identified_matching (hops : ∀ op ∈ ops, op.Valid) (i : Int) (item : Item) :
    item ∈ ((SubscriptionIndex.run ops).identified i).filter (fun item =>
        topicMatchesActual (actualFilter item) topic) ↔
      (Registered ops item ∧ item.2.subscriptionIdentifier = some i) ∧
        MqttMatches (actualFilter item) topic := by
  rw [List.mem_filter, mem_identified hops]
  refine and_congr_right fun hreg => ?_
  exact topicMatchesActual_iff ((represents_run hops).built _ _ hreg.1).levelsOk

/-- Nobody registered with the identifier. -/
theorem identified_eq_nil (hops : ∀ op ∈ ops, op.Valid) (i : Int) :
    (SubscriptionIndex.run ops).identified i = [] ↔
      ∀ other, Registered ops other → other.2.subscriptionIdentifier ≠ some i := by
  rw [List.eq_nil_iff_forall_not_mem]
  simp only [mem_identified hops, not_and, ne_eq]

theorem sublist_identified (ops : List IndexOp) (i : Int) :
    ((SubscriptionIndex.run ops).identified i).Sublist (SubscriptionIndex.run ops).entries := by
  rw [(Coherent.run ops).identified]
  exact List.filter_sublist

/-- `select`, whose candidates match the topic. -/
theorem select_chooses (hops : ∀ op ∈ ops, op.Valid) (ht : WildcardFree topic) :
    (∀ item, ((SubscriptionIndex.run ops).select topic).recipient = some item ↔
      Eligible ops topic none item ∧ ∀ other, Eligible ops topic none other →
        Precedes (latestRegistration ops) item other) ∧
    (((SubscriptionIndex.run ops).select topic).recipient = none ↔
      ∀ item, ¬ Eligible ops topic none item) :=
  selectFrom_chooses (Ordered.run ops) ((represents_run hops).sublist_matchTopic ht)
    fun item => (represents_run hops).mem_matchTopic ht item

/-- With an identifier that nobody registered, the filters decide. -/
theorem eligible_of_missing {i : Int} (hmissing : ∀ other, Registered ops other →
    other.2.subscriptionIdentifier ≠ some i) (item : Item) :
    Eligible ops topic (some i) item ↔ Eligible ops topic none item := by
  refine and_congr_right fun hreg => ?_
  constructor
  · rintro (⟨-, hm⟩ | ⟨hid, -⟩)
    · exact hm
    · exact absurd hid (hmissing item hreg)
  · exact fun hm => Or.inl ⟨hmissing, hm⟩

/-- With an identifier in use, its entries are the candidates: those that match, if any does. -/
theorem eligible_of_identified {i : Int} {first : Item} (hreg : Registered ops first)
    (hid : first.2.subscriptionIdentifier = some i) (item : Item) :
    Eligible ops topic (some i) item ↔
      (Registered ops item ∧ item.2.subscriptionIdentifier = some i) ∧
        (MqttMatches (actualFilter item) topic ∨
          ∀ other, Registered ops other → other.2.subscriptionIdentifier = some i →
            ¬ MqttMatches (actualFilter other) topic) := by
  rw [and_assoc]
  refine and_congr_right fun _ => ?_
  constructor
  · rintro (⟨hmissing, -⟩ | h)
    · exact absurd hid (hmissing first hreg)
    · exact h
  · exact Or.inr

/-- `select_by_identifier`: an identifier nobody registered leaves the choice to the filters. -/
theorem selectByIdentifier_chooses (hops : ∀ op ∈ ops, op.Valid) (ht : WildcardFree topic)
    (i : Int) :
    (∀ item, ((SubscriptionIndex.run ops).selectByIdentifier topic i).recipient = some item ↔
      Eligible ops topic (some i) item ∧ ∀ other, Eligible ops topic (some i) other →
        Precedes (latestRegistration ops) item other) ∧
    (((SubscriptionIndex.run ops).selectByIdentifier topic i).recipient = none ↔
      ∀ item, ¬ Eligible ops topic (some i) item) := by
  have hord := Ordered.run ops
  have hsub : ∀ l : List Item, l.Sublist ((SubscriptionIndex.run ops).identified i) → ∀ key,
      (l.filter fun item => specificity item = key).Sublist (SubscriptionIndex.run ops).entries :=
    fun l hl key => List.filter_sublist.trans (hl.trans (sublist_identified ops i))
  rw [SubscriptionIndex.selectByIdentifier]
  rcases hids : (SubscriptionIndex.run ops).identified i with _ | ⟨first, others⟩
  · have hmissing := (identified_eq_nil hops i).1 hids
    simp only [eligible_of_missing hmissing]
    exact select_chooses hops ht
  · have hmem : first ∈ (SubscriptionIndex.run ops).identified i := by
      rw [hids]
      exact List.mem_cons_self
    obtain ⟨hreg, hid⟩ := (mem_identified hops i first).1 hmem
    rw [← hids, if_neg (by rw [hids]; exact Bool.false_ne_true)]
    dsimp only
    split
    · -- no entry with the identifier matches
      next hnone =>
      refine selectFrom_chooses hord (hsub _ (List.Sublist.refl _)) fun item => ?_
      rw [eligible_of_identified hreg hid, mem_identified hops]
      refine (and_iff_left_of_imp fun _ => Or.inr fun other hother hoid hm => ?_).symm
      have hmatching := (mem_identified_matching hops i other).2 ⟨⟨hother, hoid⟩, hm⟩
      rw [List.isEmpty_iff.1 hnone] at hmatching
      cases hmatching
    · next hsome =>
      refine selectFrom_chooses hord (hsub _ List.filter_sublist) fun item => ?_
      rw [eligible_of_identified hreg hid, mem_identified_matching hops]
      refine and_congr_right fun _ => (or_iff_left fun hno => hsome ?_).symm
      rw [List.isEmpty_iff, List.eq_nil_iff_forall_not_mem]
      intro other hother
      obtain ⟨⟨hoth, hoid⟩, hm⟩ := (mem_identified_matching hops i other).1 hother
      exact hno other hoth hoid hm

/-- The flag of `select_by_identifier`. -/
theorem identifierMissing_iff (hops : ∀ op ∈ ops, op.Valid) (i : Int) :
    ((SubscriptionIndex.run ops).selectByIdentifier topic i).identifierMissing = true ↔
      ∀ other, Registered ops other → other.2.subscriptionIdentifier ≠ some i := by
  rw [← identified_eq_nil hops, SubscriptionIndex.selectByIdentifier]
  split
  · next hempty => exact iff_of_true rfl (List.isEmpty_iff.1 hempty)
  · next hne =>
    refine iff_of_false ?_ fun he => hne (List.isEmpty_iff.2 he)
    rw [SubscriptionIndex.selectFrom]
    split <;> exact Bool.false_ne_true

end Candidates

namespace InboundPublishFlow

/-- **A PUBLISH is routed to the first of the registrations that are eligible for it**, by rank
    and then by age, and to none when there is none. The warning about the identifier is logged
    exactly when nobody registered it. -/
theorem routed_first (ops : List IndexOp) (hops : ∀ op ∈ ops, op.Valid) (f : InboundPublishFlow)
    (hf : f.subscriptions = SubscriptionIndex.run ops) (publish : Publish)
    (ht : WildcardFree publish.topic) :
    let identifier := publish.properties.bind fun p => p.subscriptionIdentifier
    (∀ item, (f.selectSubscription publish).recipient = some item ↔
      Eligible ops publish.topic identifier item ∧
        ∀ other, Eligible ops publish.topic identifier other →
          Precedes (latestRegistration ops) item other) ∧
    ((f.selectSubscription publish).recipient = none ↔
      ∀ item, ¬ Eligible ops publish.topic identifier item) ∧
    ((f.selectSubscription publish).identifierMissing = true ↔
      ∃ i, identifier = some i ∧
        ∀ other, Registered ops other → other.2.subscriptionIdentifier ≠ some i) := by
  intro identifier
  rcases hid : identifier with _ | i
  · have hsel : f.selectSubscription publish = (SubscriptionIndex.run ops).select publish.topic := by
      rw [selectSubscription, hf]
      simp only [identifier] at hid
      rw [hid]
    rw [hsel]
    obtain ⟨hsome, hnone⟩ := select_chooses hops ht
    refine ⟨hsome, hnone, iff_of_false ?_ ?_⟩
    · rw [SubscriptionIndex.select, SubscriptionIndex.selectFrom]
      split <;> exact Bool.false_ne_true
    · rintro ⟨i, he, -⟩
      cases he
  · have hsel : f.selectSubscription publish =
        (SubscriptionIndex.run ops).selectByIdentifier publish.topic i := by
      rw [selectSubscription, hf]
      simp only [identifier] at hid
      rw [hid]
    rw [hsel]
    obtain ⟨hsome, hnone⟩ := selectByIdentifier_chooses hops ht i
    refine ⟨hsome, hnone, ?_⟩
    rw [identifierMissing_iff hops]
    constructor
    · exact fun h => ⟨i, rfl, h⟩
    · rintro ⟨j, he, h⟩
      rw [Option.some.inj he]
      exact h

/-- A subscription with an identifier, and one without that matches `b`. -/
def missedOps : List IndexOp :=
  [.add "a/+" { queue := 0, actualFilter := "a/+", subscriptionIdentifier := some 7 },
    .add "b" { queue := 1, actualFilter := "b" }]

/-- The entry with the identifier gets the message, although its filter does not match. -/
theorem routed_first_missedOps :
    Eligible missedOps "b" (some 7)
      ("a/+", { queue := 0, actualFilter := "a/+", subscriptionIdentifier := some 7 }) ∧
    ¬ MqttMatches "a/+" "b" := by
  have hops : ∀ op ∈ missedOps, op.Valid := by
    simp only [missedOps, List.forall_mem_cons]
    exact ⟨⟨by decide +kernel, [], by decide +kernel⟩, ⟨by decide +kernel, [], by decide +kernel⟩,
      by simp⟩
  have h := routed_first missedOps hops
    { bufferSize := 0, maxsize := fun _ => 0, subscriptions := SubscriptionIndex.run missedOps } rfl
    { topic := "b", payload := [], qos := .atMostOnce, retain := false, dup := false,
      properties := some { subscriptionIdentifier := some 7 } } ⟨by decide, by decide⟩
  refine ⟨((h.1 _).1 (by decide +kernel)).1, fun hm => ?_⟩
  have hfalse := (topicMatchesActual_iff (validateSubscribeTopic_levels (by decide +kernel))).2 hm
  exact absurd hfalse (by decide +kernel)

end InboundPublishFlow

end Zmqtt
