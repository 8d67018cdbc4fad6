/-
  A `subscribe` that fails (`subscribe` and `_subscribe` of `_internal/protocol.py`): it adds its
  entries, waits for its exchange while other calls change the index, and takes the entries out
  again when the exchange fails. The drain that follows is outside of this `try`: a call that
  fails there leaves its entries.

  What the index answers is decided by its entries in their order (`sameRouting_of_entries`);
  the shape of the trie is not part of it, since a node that the failed call has created may
  stay for another call. On the entries, the changes of other calls on other filters commute
  with dropping the filters of the failed call (`entries_edit_without`).
-/
import Zmqtt.Topics.Routing
import Zmqtt.Session.Moves

namespace Zmqtt

/-- The answers of the index that routing and the calls use. -/
structure SameRouting (idx idx' : SubscriptionIndex) : Prop where
  matchTopic : ∀ topic, idx.matchTopic topic = idx'.matchTopic topic
  select : ∀ topic, idx.select topic = idx'.select topic
  identified : ∀ i, idx.identified i = idx'.identified i
  selectByIdentifier : ∀ topic i, idx.selectByIdentifier topic i = idx'.selectByIdentifier topic i
  contains : ∀ filter, idx.contains filter = idx'.contains filter

/-- Equal entries in an equal order give equal answers. -/
theorem sameRouting_of_entries {idx idx' : SubscriptionIndex} (h : Coherent idx)
    (h' : Coherent idx') (he : idx.entries = idx'.entries) : SameRouting idx idx' := by
  have hcollect : ∀ ts, idx.root.collect ts = idx'.root.collect ts := by
    refine h.proper.collect_congr h'.proper fun path => ?_
    rw [h.path, h'.path, he]
  have hmatch : ∀ topic, idx.matchTopic topic = idx'.matchTopic topic := by
    intro topic
    rw [SubscriptionIndex.matchTopic, SubscriptionIndex.matchTopic, hcollect]
  have hselect : ∀ topic, idx.select topic = idx'.select topic := by
    intro topic
    rw [SubscriptionIndex.select, SubscriptionIndex.select, hmatch]
  have hident : ∀ i, idx.identified i = idx'.identified i := by
    intro i
    rw [h.identified, h'.identified, he]
  refine ⟨hmatch, hselect, hident, ?_, ?_⟩
  · intro topic i
    rw [SubscriptionIndex.selectByIdentifier, SubscriptionIndex.selectByIdentifier, hident, hselect]
  · intro filter
    rw [SubscriptionIndex.contains, SubscriptionIndex.contains, he]

/-! ## Coherence -/

theorem Coherent.removeAll {idx : SubscriptionIndex} (h : Coherent idx) (filters : List String) :
    Coherent (Interests.removeAll idx filters) := by
  rw [Interests.removeAll]
  induction filters generalizing idx with
  | nil => exact h
  | cons f filters ih => exact ih (h.remove f)

theorem Coherent.edit {idx : SubscriptionIndex} (h : Coherent idx) (e : IndexEdit) :
    Coherent (idx.edit e) := by
  cases e with
  | addMany entries => exact h.addMany entries
  | removeAll filters => exact h.removeAll filters
  | addResponseObserver topic =>
    rw [SubscriptionIndex.edit, SubscriptionIndex.addResponseObserver]
    split
    · exact h
    · exact ⟨⟨h.path, h.nodup⟩, h.proper, h.identified⟩
  | removeResponseObserver topic => exact ⟨⟨h.path, h.nodup⟩, h.proper, h.identified⟩

theorem Coherent.edits {idx : SubscriptionIndex} (h : Coherent idx) (edits : List IndexEdit) :
    Coherent (edits.foldl SubscriptionIndex.edit idx) := by
  induction edits generalizing idx with
  | nil => exact h
  | cons e edits ih => exact ih (h.edit e)

/-! ## The entries without some filters -/

/-- The entries that are not of `filters`. -/
def without (filters : List String) (entries : Dict String SubscriptionEntry) :
    Dict String SubscriptionEntry :=
  entries.filter fun item => item.1 ∉ filters

theorem without_eq_self {filters : List String} {entries : Dict String SubscriptionEntry}
    (h : ∀ f ∈ filters, f ∉ entries.keys) : without filters entries = entries := by
  refine List.filter_eq_self.2 fun item hitem => decide_eq_true fun hin => ?_
  exact h item.1 hin (Dict.mem_keys_of_mem hitem)

theorem without_pop (filters : List String) (entries : Dict String SubscriptionEntry)
    (f : String) : without filters (entries.pop f) = (without filters entries).pop f := by
  rw [without, without, Dict.pop, Dict.pop, List.filter_filter, List.filter_filter]
  apply List.filter_congr
  intro item _
  rw [Bool.and_comm]

/-- Removing a filter that is left out anyway. -/
theorem without_pop_of_mem {filters : List String} (entries : Dict String SubscriptionEntry)
    {f : String} (hf : f ∈ filters) : without filters (entries.pop f) = without filters entries := by
  rw [without, without, Dict.pop, List.filter_filter]
  apply List.filter_congr
  intro item _
  by_cases he : item.1 = f
  · simp [he, hf]
  · simp [he]

theorem entries_removeAll (idx : SubscriptionIndex) (filters : List String) :
    (Interests.removeAll idx filters).entries = without filters idx.entries := by
  rw [Interests.removeAll]
  induction filters generalizing idx with
  | nil => exact (without_eq_self (by simp)).symm
  | cons f filters ih =>
    rw [List.foldl_cons, ih, SubscriptionIndex.entries_remove, without, without, Dict.pop,
      List.filter_filter]
    apply List.filter_congr
    intro item _
    simp [not_or, Bool.and_comm]

/-- Adding filters that are left out changes nothing. -/
theorem without_addMany_of_subset {filters : List String} (idx : SubscriptionIndex)
    {entries : Dict String SubscriptionEntry} (h : ∀ f ∈ entries.keys, f ∈ filters) :
    without filters (idx.addMany entries).entries = without filters idx.entries := by
  rw [SubscriptionIndex.addMany]
  induction entries generalizing idx with
  | nil => rfl
  | cons item entries ih =>
    obtain ⟨f, entry⟩ := item
    rw [Dict.keys_cons, List.forall_mem_cons] at h
    rw [List.foldl_cons, ih (idx.add f entry) h.2, SubscriptionIndex.entries_add, without,
      List.filter_append]
    have hnone : [(f, entry)].filter (fun item : Item => item.1 ∉ filters) = [] := by
      simp [h.1]
    rw [hnone, List.append_nil]
    exact without_pop_of_mem idx.entries h.1

/-- A change elsewhere commutes with leaving the filters out. -/
theorem entries_edit_without {filters : List String} {e : IndexEdit} (he : e.Elsewhere filters)
    {idx idx' : SubscriptionIndex} (h : without filters idx.entries = idx'.entries) :
    without filters (idx.edit e).entries = (idx'.edit e).entries := by
  cases e with
  | addMany entries =>
    simp only [SubscriptionIndex.edit, SubscriptionIndex.addMany, IndexEdit.Elsewhere] at he ⊢
    induction entries generalizing idx idx' with
    | nil => exact h
    | cons item entries ih =>
      obtain ⟨f, entry⟩ := item
      rw [Dict.keys_cons, List.forall_mem_cons] at he
      refine ih ?_ he.2
      rw [SubscriptionIndex.entries_add, SubscriptionIndex.entries_add, ← h, ← without_pop, without,
        List.filter_append, ← without]
      simp [he.1]
  | removeAll removed =>
    simp only [SubscriptionIndex.edit]
    rw [entries_removeAll, entries_removeAll, ← h, without, without, List.filter_filter, without,
      without, List.filter_filter]
    apply List.filter_congr
    intro item _
    rw [Bool.and_comm]
  | addResponseObserver topic =>
    have hsame : ∀ i : SubscriptionIndex, (i.addResponseObserver topic).entries = i.entries := by
      intro i
      rw [SubscriptionIndex.addResponseObserver]
      split <;> rfl
    simp only [SubscriptionIndex.edit]
    rw [hsame, hsame, h]
  | removeResponseObserver topic => exact h

theorem entries_edits_without {filters : List String} {edits : List IndexEdit}
    (hedits : ∀ e ∈ edits, e.Elsewhere filters) {idx idx' : SubscriptionIndex}
    (h : without filters idx.entries = idx'.entries) :
    without filters (edits.foldl SubscriptionIndex.edit idx).entries =
      (edits.foldl SubscriptionIndex.edit idx').entries := by
  induction edits generalizing idx idx' with
  | nil => exact h
  | cons e edits ih =>
    obtain ⟨he, hedits⟩ := List.forall_mem_cons.1 hedits
    exact ih hedits (entries_edit_without he h)

/-- New entries, changes elsewhere, and the new entries out again. -/
theorem entries_removeAll_edits {idx : SubscriptionIndex}
    {entries : Dict String SubscriptionEntry} (hnew : ∀ f ∈ entries.keys, f ∉ idx.entries.keys)
    {edits : List IndexEdit} (hedits : ∀ e ∈ edits, e.Elsewhere entries.keys) :
    (Interests.removeAll (edits.foldl SubscriptionIndex.edit (idx.addMany entries))
      entries.keys).entries = (edits.foldl SubscriptionIndex.edit idx).entries := by
  have hwithout : without entries.keys (idx.addMany entries).entries = idx.entries := by
    rw [without_addMany_of_subset idx fun f hf => hf, without_eq_self hnew]
  rw [entries_removeAll]
  exact entries_edits_without hedits hwithout

/-- Indexes with equal entries answer alike after equal changes. -/
theorem sameRouting_edits {idx idx' : SubscriptionIndex} (h : Coherent idx) (h' : Coherent idx')
    (he : idx.entries = idx'.entries) (edits : List IndexEdit) :
    SameRouting (edits.foldl SubscriptionIndex.edit idx)
      (edits.foldl SubscriptionIndex.edit idx') := by
  refine sameRouting_of_entries (h.edits edits) (h'.edits edits) ?_
  have hnone : ∀ entries : Dict String SubscriptionEntry, without [] entries = entries :=
    fun entries => without_eq_self (by simp)
  have hall : ∀ e ∈ edits, e.Elsewhere [] := by
    intro e _
    cases e with
    | addMany | removeAll => exact fun f _ => List.not_mem_nil
    | addResponseObserver | removeResponseObserver => trivial
  have hsame := entries_edits_without hall ((hnone idx.entries).trans he)
  rwa [hnone] at hsame

/-! ## Calls -/

namespace Interests

variable {s : Interests}

/-- The index of a connection is in step with its entries. -/
theorem coherent_reach {version : Version} {maxPublishQos : QoS} {strippedPrefixes : List String}
    (h : Reach step anyStep (fresh version maxPublishQos strippedPrefixes) s) :
    Coherent s.index := by
  refine Reach.invariant (I := fun s => Coherent s.index) h Coherent.empty fun s e hs _ => ?_
  obtain ⟨edits, he⟩ := edited_step s e
  rw [he]
  exact hs.edits edits

/-- The new entries are for filters that are not in the index. -/
theorem newEntries_not_contained (s : Interests) (filters : List SubscriptionRequest)
    (autoAck : Bool) (queue : Nat) (identifier : Option Int) {f : String}
    (h : f ∈ (s.newEntries filters autoAck queue identifier).keys) : f ∉ s.index.entries.keys := by
  have hloop : ∀ (reqs : List SubscriptionRequest) (entries : Dict String SubscriptionEntry),
      (∀ f ∈ entries.keys, f ∉ s.index.entries.keys) →
      ∀ f ∈ (reqs.foldl (fun entries req =>
        if s.index.contains req.topicFilter then entries
        else entries.set req.topicFilter
          { queue, autoAck
            actualFilter := sharedFilterToActual req.topicFilter s.strippedPrefixes
            subscriptionIdentifier := identifier }) entries).keys, f ∉ s.index.entries.keys := by
    intro reqs
    induction reqs with
    | nil => exact fun _ hall => hall
    | cons req reqs ih =>
      intro entries hall
      rw [List.foldl_cons]
      split
      · exact ih entries hall
      · next hno =>
        refine ih _ fun f hf => ?_
        rcases Dict.mem_keys_set.1 hf with hf | rfl
        · exact hall f hf
        · rw [← Dict.get?_eq_none_iff]
          simpa [SubscriptionIndex.contains] using hno
  exact hloop filters [] (by simp) f h

/-- `subscribe` raises in its exchange, or in the drain after it. -/
def subscribeRaises (p : Protocol) (exchange : Nat) (drained : Bool) : Bool :=
  !(p.returned exchange && drained)

theorem index_subscribe_of_awaits {k : Nat} {filters : List SubscriptionRequest} {autoAck : Bool}
    {queue : Nat} {identifier : Option Int}
    (h : (s.subscribe k filters autoAck queue identifier).protocol.awaits s.protocol.calls.length =
      true) :
    (s.subscribe k filters autoAck queue identifier).index =
      s.index.addMany (s.newEntries filters autoAck queue identifier) := by
  unfold Interests.subscribe at h ⊢
  dsimp only at h ⊢
  split at h
  · next hstarted =>
    rw [if_pos hstarted]
    rfl
  · next hno => exact absurd h hno

theorem index_subscribe_of_raises {k : Nat} {filters : List SubscriptionRequest} {autoAck : Bool}
    {queue : Nat} {identifier : Option Int}
    (h : (s.subscribe k filters autoAck queue identifier).protocol.awaits s.protocol.calls.length =
      false) :
    (s.subscribe k filters autoAck queue identifier).index =
      removeAll (s.index.addMany (s.newEntries filters autoAck queue identifier))
        (s.newEntries filters autoAck queue identifier).keys := by
  unfold Interests.subscribe at h ⊢
  dsimp only at h ⊢
  split at h
  · next hstarted => exact absurd h (by rw [setPc, hstarted]; decide)
  · next hno =>
    rw [if_neg hno]
    rfl

/-- What a change elsewhere says about a filter. -/
theorem contains_edits {filters : List String} {edits : List IndexEdit}
    (hedits : ∀ e ∈ edits, e.Elsewhere filters) (idx : SubscriptionIndex) {f : String}
    (hf : f ∈ filters) :
    (edits.foldl SubscriptionIndex.edit idx).contains f = idx.contains f := by
  induction edits generalizing idx with
  | nil => rfl
  | cons e edits ih =>
    obtain ⟨he, hedits⟩ := List.forall_mem_cons.1 hedits
    rw [List.foldl_cons, ih hedits, Bool.eq_iff_iff]
    cases e with
    | addMany entries =>
      refine (contains_addMany idx entries f).trans ⟨fun h => h.resolve_right ?_, Or.inl⟩
      exact fun hin => he f hin hf
    | removeAll removed =>
      refine (contains_removeAll idx removed f).trans ⟨And.left, fun h => ⟨h, ?_⟩⟩
      exact fun hin => he f hin hf
    | addResponseObserver topic =>
      rw [SubscriptionIndex.edit, SubscriptionIndex.addResponseObserver]
      split <;> exact Iff.rfl
    | removeResponseObserver topic => exact Iff.rfl

/-- **A failed subscribe and routing.** In every state of a connection, with whatever guards and
    tasks: a `subscribe` whose exchange raises at once leaves an index that answers as before. One
    whose exchange is started and that raises, with changes of other calls on other filters while
    it waits and in its drain, leaves an index that answers as if only these changes had been made
    if and only if it is the exchange that failed, or the call had added no entry. -/
theorem failed_subscribe_invisible {version : Version} {maxPublishQos : QoS}
    {strippedPrefixes : List String}
    (h : Reach step anyStep (fresh version maxPublishQos strippedPrefixes) s)
    (guards : SubscriptionGuards) (tasks : List InterestTask) (k : Nat)
    (filters : List SubscriptionRequest) (autoAck : Bool) (queue : Nat) (identifier : Option Int) :
    let after := { s with guards, tasks }.subscribe k filters autoAck queue identifier
    let exchange := s.protocol.calls.length
    let newFilters := (s.newEntries filters autoAck queue identifier).keys
    (after.protocol.awaits exchange = false → SameRouting after.index s.index) ∧
    (after.protocol.awaits exchange = true → ∀ waiting draining : List IndexEdit,
      (∀ e ∈ waiting ++ draining, e.Elsewhere (filters.map (·.topicFilter))) →
      ∀ s' : Interests, s'.index = waiting.foldl SubscriptionIndex.edit after.index →
      ∀ drained : Bool, subscribeRaises s'.protocol exchange drained = true →
      (SameRouting (draining.foldl SubscriptionIndex.edit
          (s'.settle k (.subscribing exchange newFilters)).index)
        ((waiting ++ draining).foldl SubscriptionIndex.edit s.index) ↔
      s'.protocol.returned exchange = false ∨ newFilters = [])) := by
  have hcoherent := coherent_reach h
  have hraised := @index_subscribe_of_raises { s with guards, tasks } k filters autoAck queue identifier
  have hadded := @index_subscribe_of_awaits { s with guards, tasks } k filters autoAck queue identifier
  have hentries : { s with guards, tasks }.newEntries filters autoAck queue identifier =
    s.newEntries filters autoAck queue identifier := rfl
  rw [hentries] at hraised hadded
  clear hentries
  generalize hentries : s.newEntries filters autoAck queue identifier = entries at *
  have hnew : ∀ f ∈ entries.keys, f ∉ s.index.entries.keys := by
    rw [← hentries]
    exact fun f hf => newEntries_not_contained s filters autoAck queue identifier hf
  have hkeys : ∀ f ∈ entries.keys, f ∈ filters.map (·.topicFilter) := by
    rw [← hentries]
    exact fun f hf => keys_newEntries s filters autoAck queue identifier hf
  dsimp only
  constructor
  · intro hraise
    rw [hraised hraise]
    exact sameRouting_of_entries ((hcoherent.addMany entries).removeAll _) hcoherent
      (@entries_removeAll_edits s.index entries hnew [] (by simp))
  · intro hawaits waiting draining hedits s' hs' drained hraises
    rw [hadded hawaits] at hs'
    have hother : ∀ e ∈ waiting ++ draining, e.Elsewhere entries.keys := by
      intro e he
      exact (hedits e he).mono hkeys
    constructor
    · intro hsame
      -- the first new filter tells the two indexes apart, unless the exchange failed
      by_contra hno
      rw [not_or, Bool.not_eq_false] at hno
      obtain ⟨hreturned, hne⟩ := hno
      obtain ⟨f, hf⟩ := List.exists_mem_of_ne_nil _ hne
      have hcontains := hsame.contains f
      rw [settle, hreturned, if_pos rfl] at hcontains
      have hleft : (draining.foldl SubscriptionIndex.edit s'.index).contains f = true := by
        rw [hs', ← List.foldl_append, contains_edits hother _ hf, contains_addMany]
        exact Or.inr hf
      have hright : ((waiting ++ draining).foldl SubscriptionIndex.edit s.index).contains f =
          false := by
        rw [contains_edits hother _ hf, SubscriptionIndex.contains,
          (Dict.get?_eq_none_iff _ _).2 (hnew f hf)]
        rfl
      rw [hright] at hcontains
      exact absurd (hleft.symm.trans hcontains) (by decide)
    · rintro hcond
      have hindex : (s'.settle k (.subscribing s.protocol.calls.length entries.keys)).index =
          removeAll s'.index entries.keys := by
        rw [settle]
        split
        · next hreturned =>
          have hnil : entries.keys = [] := hcond.resolve_left (by rw [hreturned]; decide)
          rw [hnil]
          rfl
        · rfl
      rw [hindex, hs', List.foldl_append]
      refine sameRouting_edits ?_ ?_ ?_ draining
      · exact ((hcoherent.addMany entries).edits waiting).removeAll _
      · exact hcoherent.edits waiting
      · exact entries_removeAll_edits hnew fun e he => hother e (List.mem_append_left _ he)

/-- A subscription to `a` whose SUBACK rejects it; meanwhile another call subscribes `b`. -/
theorem failed_subscribe_invisible_rejected :
    let s := fresh .v5 .exactlyOnce []
    let other : IndexEdit := .addMany [("b", { queue := 8, actualFilter := "b" })]
    let after := s.subscribe 0 [{ topicFilter := "a", qos := .atMostOnce }] true 7 none
    let reply := after.protocol.step (.receive (.suback { packetId := 1, returnCodes := [0x87] }))
    SameRouting
      ({ after with index := after.index.edit other, protocol := (reply.resume 0 true).resume 0 true
        }.settle 0 (.subscribing 0 ["a"])).index
      (s.index.edit other) := by
  have h := failed_subscribe_invisible (s := fresh .v5 .exactlyOnce []) Relation.ReflTransGen.refl
    {} [] 0 [{ topicFilter := "a", qos := .atMostOnce }] true 7 none
  dsimp only at h ⊢
  refine (h.2 (by decide +kernel) [.addMany [("b", { queue := 8, actualFilter := "b" })]] []
    ?_ _ rfl true (by decide +kernel)).2 (Or.inl (by decide +kernel))
  intro e he
  rw [List.append_nil, List.mem_singleton] at he
  rw [he]
  simp [IndexEdit.Elsewhere]

/-- A subscription that the broker accepts. -/
def acceptedRun : List InterestEvent :=
  [.start (.subscribe [{ topicFilter := "a", qos := .atMostOnce }] true 7 none), .resume 0 true,
    .background (.receive (.suback { packetId := 1, returnCodes := [0] })), .resume 0 true]

/-- The call raises in its drain, and routing still finds its entry. -/
theorem undrained_subscribe_routed :
    let s := acceptedRun.foldl step (fresh .v5 .exactlyOnce [])
    subscribeRaises s.protocol 0 false = true ∧
    (s.index.select "a").recipient.map Prod.fst = some "a" ∧
    ¬ SameRouting s.index (fresh .v5 .exactlyOnce []).index := by
  refine ⟨by decide +kernel, by decide +kernel, fun h => ?_⟩
  have hcontains := h.contains "a"
  revert hcontains
  decide +kernel

end Interests

end Zmqtt
