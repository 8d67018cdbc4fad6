/-
  Which entry a message is routed to (`select` and `select_by_identifier` of
  `_internal/subscription_index.py`).

  The entries of the index stand in the order of their latest registration (`entries_add`,
  `Ordered`), every path of the trie and every identifier lists its own in that order
  (`Coherent`), and the sort of `match` is stable. So the winners of `_select_from` share one
  filter, no other filter that matches is smaller, and the first of them is the oldest.
-/
import Zmqtt.Topics.Specificity
import Zmqtt.Topics.SubscriptionIndex

namespace Zmqtt

/-! ## Stable sorting -/

section Sorting

variable {α κ : Type} [DecidableEq κ] {le : α → α → Prop} [DecidableRel le] {key : α → κ}

theorem filter_orderedInsert (hle : ∀ a b, key a = key b → le a b) (k : κ) (a : α) (l : List α) :
    (l.orderedInsert le a).filter (fun x => key x = k) = (a :: l).filter fun x => key x = k := by
  induction l with
  | nil => rfl
  | cons b l ih =>
    by_cases hab : le a b
    · rw [List.orderedInsert_cons_of_le le l hab]
    · rw [List.orderedInsert_of_not_le le l hab, List.filter_cons, ih]
      -- `b` goes before `a`, so they do not both have the key `k`
      by_cases ha : key a = k
      · have hb : ¬ key b = k := fun hb => hab (hle a b (ha.trans hb.symm))
        simp [ha, hb]
      · simp [List.filter_cons, ha]

/-- Insertion sort keeps the order of elements with one key. -/
theorem filter_insertionSort (hle : ∀ a b, key a = key b → le a b) (k : κ) (l : List α) :
    (l.insertionSort le).filter (fun x => key x = k) = l.filter fun x => key x = k := by
  induction l with
  | nil => rfl
  | cons a l ih =>
    rw [List.insertionSort_cons, filter_orderedInsert hle, List.filter_cons, List.filter_cons, ih]

/-- A concatenation in which only one part is not empty. -/
theorem flatMap_eq_of_nodup {β : Type} {l : List α} {f : α → List β} {a : α} (hl : l.Nodup)
    (ha : a ∈ l) (hf : ∀ b ∈ l, b ≠ a → f b = []) : l.flatMap f = f a := by
  induction l with
  | nil => cases ha
  | cons b l ih =>
    obtain ⟨hb, hl⟩ := List.nodup_cons.1 hl
    rw [List.flatMap_cons]
    by_cases hba : b = a
    · subst hba
      have hnil : l.flatMap f = [] := by
        rw [List.flatMap_eq_nil_iff]
        intro c hc
        exact hf c (List.mem_cons_of_mem b hc) fun he => hb (he ▸ hc)
      rw [hnil, List.append_nil]
    · rw [hf b List.mem_cons_self hba, List.nil_append]
      exact ih hl ((List.mem_cons.1 ha).resolve_left (Ne.symm hba))
        fun c hc => hf c (List.mem_cons_of_mem b hc)

end Sorting

/-! ## The walk over any topic -/

namespace Node

/-- No wildcard is a key of the literal children, here and below. -/
inductive Proper : Node → Prop where
  | intro (node : Node) (literal : ∀ part, part = "+" ∨ part = "#" → node.children.get? part = none)
      (below : ∀ part child, node.child? part = some child → Proper child) : Proper node

variable {node : Node}

theorem Proper.literal (h : Proper node) {part : String} (hp : part = "+" ∨ part = "#") :
    node.children.get? part = none := by
  cases h with
  | intro _ hlit _ => exact hlit part hp

theorem Proper.child (h : Proper node) {part : String} {child : Node}
    (hc : node.child? part = some child) : Proper child := by
  cases h with
  | intro _ _ hbelow => exact hbelow part child hc

theorem child?_empty (part : String) : empty.child? part = none := by
  unfold child? mapping
  split <;> rfl

theorem Proper.empty : Proper Node.empty := by
  refine ⟨Node.empty, fun part _ => rfl, fun part child hc => ?_⟩
  rw [child?_empty] at hc
  cases hc

theorem Proper.getD (h : Proper node) (part : String) :
    Proper ((node.child? part).getD Node.empty) := by
  rcases hc : node.child? part with _ | child
  · exact Proper.empty
  · exact h.child hc

/-- A change of the children under `part` alone. -/
theorem Proper.setMapping (h : Proper node) {part : String} {m : Dict String Node}
    (hm : ∀ p, p ≠ part → m.get? p = (node.mapping part).get? p)
    (hchild : ∀ child, m.get? part = some child → Proper child) :
    Proper (node.setMapping part m) := by
  refine ⟨_, fun p hp => ?_, fun p child hc => ?_⟩
  · unfold Node.setMapping
    split
    · exact h.literal hp
    · next hpart =>
      have hne : p ≠ part := fun he => hpart (he ▸ hp)
      refine (hm p hne).trans ?_
      rw [mapping, if_neg hpart]
      exact h.literal hp
  · rw [child?_setMapping node part p m hm] at hc
    split at hc
    · exact hchild child hc
    · exact h.child hc

theorem Proper.insert (h : Proper node) (path : List String) (item : Item) :
    Proper (Node.insert path item node) := by
  induction path generalizing node with
  | nil => exact ⟨_, fun _ => h.literal, fun _ _ => h.child⟩
  | cons part parts ih =>
    rw [Node.insert]
    refine h.setMapping (fun p hp => ?_) fun child hc => ?_
    · rw [Dict.get?_set, if_neg (Ne.symm hp)]
    · rw [Dict.get?_set, if_pos rfl] at hc
      obtain rfl := Option.some.inj hc
      exact ih (h.getD part)

theorem Proper.removeEntry (h : Proper node) (path : List String) (item : Item) :
    Proper (Node.removeEntry path item node) := by
  induction path generalizing node with
  | nil => exact ⟨_, fun _ => h.literal, fun _ _ => h.child⟩
  | cons part parts ih =>
    rw [Node.removeEntry]
    rcases hg : (node.mapping part).get? part with _ | child
    · exact h
    · dsimp only
      split
      · refine h.setMapping (fun p hp => ?_) fun child hc => ?_
        · rw [Dict.get?_pop, if_neg (Ne.symm hp)]
        · rw [Dict.get?_pop, if_pos rfl] at hc
          cases hc
      · refine h.setMapping (fun p hp => ?_) fun child' hc => ?_
        · rw [Dict.get?_set, if_neg (Ne.symm hp)]
        · rw [Dict.get?_set, if_pos rfl] at hc
          obtain rfl := Option.some.inj hc
          exact ih (h.child hg)

theorem collect_empty (ts : List String) : empty.collect ts = [] := by
  cases ts <;> rfl

theorem entriesAt_cons (part : String) (path : List String) (node : Node) :
    entriesAt (part :: path) node = entriesAt path ((node.child? part).getD empty) := by
  rw [entriesAt]
  cases node.child? part with
  | none => exact (entriesAt_empty path).symm
  | some child => rfl

/-- One step of the walk: a wildcard level of the topic has no literal child. -/
theorem Proper.collect_cons (h : Proper node) (t : String) (ts : List String) :
    node.collect (t :: ts) = node.hashEntries ++
      ((if t = "+" ∨ t = "#" then [] else ((node.child? t).getD Node.empty).collect ts) ++
        ((node.child? "+").getD Node.empty).collect ts) := by
  have hplus : node.child? "+" = node.wildcardChildren.get? "+" := rfl
  rw [collect, hplus]
  congr 2
  · split
    · next child hc =>
      rw [if_neg]
      · rw [child?, mapping, if_neg, hc]
        · rfl
        · exact fun hw => by rw [h.literal hw] at hc; cases hc
      · exact fun hw => by rw [h.literal hw] at hc; cases hc
    · next hc =>
      split
      · rfl
      · next hw =>
        rw [child?, mapping, if_neg hw, hc]
        exact (collect_empty ts).symm
  · cases node.wildcardChildren.get? "+" with
    | none => exact (collect_empty ts).symm
    | some child => rfl

/-- What the walk over a topic collects depends only on the entries at each path. -/
theorem Proper.collect_congr {node' : Node} (h : Proper node) (h' : Proper node')
    (hsame : ∀ path, entriesAt path node = entriesAt path node') (ts : List String) :
    node.collect ts = node'.collect ts := by
  induction ts generalizing node node' with
  | nil =>
    rw [collect, collect, hashEntries_eq, hashEntries_eq, hsame ["#"]]
    exact congrArg _ (hsame [])
  | cons t ts ih =>
    have hchild : ∀ part, ((node.child? part).getD Node.empty).collect ts =
        ((node'.child? part).getD Node.empty).collect ts := by
      refine fun part => ih (h.getD part) (h'.getD part) fun path => ?_
      rw [← entriesAt_cons, ← entriesAt_cons]
      exact hsame (part :: path)
    rw [h.collect_cons, h'.collect_cons, hashEntries_eq, hashEntries_eq, hsame ["#"], hchild,
      hchild]

end Node

/-! ## The entries and the identifiers -/

namespace SubscriptionIndex

theorem entries_remove (idx : SubscriptionIndex) (filter : String) :
    (idx.remove filter).entries = idx.entries.pop filter := by
  rw [remove]
  split
  · next hnone =>
    rw [Dict.get?_eq_none_iff] at hnone
    refine (List.filter_eq_self.2 ?_).symm
    intro item hitem
    refine decide_eq_true fun he => hnone ?_
    rw [← he]
    exact Dict.mem_keys_of_mem hitem
  · rfl

theorem not_mem_keys_entries_remove (idx : SubscriptionIndex) (filter : String) :
    filter ∉ (idx.remove filter).entries.keys := by
  rw [entries_remove]
  exact Dict.not_mem_keys_pop idx.entries filter

theorem entries_register {idx : SubscriptionIndex} {filter : String} (entry : SubscriptionEntry)
    (h : filter ∉ idx.entries.keys) :
    (idx.register filter entry).entries = idx.entries ++ [(filter, entry)] :=
  Dict.set_of_not_mem entry h

/-- A filter that is not in the index is not removed by `add`. -/
theorem add_eq (idx : SubscriptionIndex) (filter : String) (entry : SubscriptionEntry) :
    idx.add filter entry = (idx.remove filter).register filter entry := by
  rw [add]
  split
  · rfl
  · next hn =>
    have hnone : idx.entries.get? filter = none := by
      simpa using hn
    rw [remove, hnone]

/-- A filter that is registered again moves to the end. -/
theorem entries_add (idx : SubscriptionIndex) (filter : String) (entry : SubscriptionEntry) :
    (idx.add filter entry).entries = idx.entries.pop filter ++ [(filter, entry)] := by
  rw [add_eq, entries_register entry (idx.not_mem_keys_entries_remove filter), entries_remove]

theorem identified_dropIdentifier (byIdentifier : Dict Int (Dict String SubscriptionEntry))
    (filter : String) (identifier : Option Int) (i : Int) :
    ((dropIdentifier byIdentifier filter identifier).get? i).getD [] =
      if identifier = some i then ((byIdentifier.get? i).getD []).pop filter
      else (byIdentifier.get? i).getD [] := by
  unfold dropIdentifier
  cases identifier with
  | none => rfl
  | some j =>
    dsimp only
    by_cases hji : j = i
    · subst hji
      rw [if_pos rfl]
      rcases hg : byIdentifier.get? j with _ | identified
      · rw [hg]
        rfl
      · dsimp only
        split
        · next hempty =>
          rw [Dict.get?_pop, if_pos rfl]
          exact (List.isEmpty_iff.1 hempty).symm
        · rw [Dict.get?_set, if_pos rfl]
          rfl
    · rw [if_neg fun he => hji (Option.some.inj he)]
      split
      · rfl
      · split
        · rw [Dict.get?_pop, if_neg hji]
        · rw [Dict.get?_set, if_neg hji]

end SubscriptionIndex

/-- The index is in step with its entries: so are the trie and the identifiers. -/
structure Coherent (idx : SubscriptionIndex) : Prop extends TrieOk idx where
  proper : idx.root.Proper
  identified : ∀ i, idx.identified i =
    idx.entries.filter fun item => item.2.subscriptionIdentifier = some i

namespace Coherent

variable {idx : SubscriptionIndex}

theorem empty : Coherent {} :=
  ⟨⟨fun p => by simp, List.nodup_nil⟩, Node.Proper.empty, fun _ => rfl⟩

theorem remove (h : Coherent idx) (filter : String) : Coherent (idx.remove filter) := by
  refine ⟨h.toTrieOk.remove filter, ?_, fun i => ?_⟩
  · rw [SubscriptionIndex.remove]
    split
    · exact h.proper
    · exact h.proper.removeEntry _ _
  rw [SubscriptionIndex.entries_remove]
  have hi := h.identified i
  rw [SubscriptionIndex.identified] at hi ⊢
  rw [SubscriptionIndex.remove]
  rcases hg : idx.entries.get? filter with _ | entry
  · have hno := (Dict.get?_eq_none_iff _ _).1 hg
    dsimp only
    rw [hi, Dict.pop, List.filter_filter]
    apply List.filter_congr
    intro item hitem
    have hne : item.1 ≠ filter := fun he => hno (he ▸ Dict.mem_keys_of_mem hitem)
    simp [hne]
  · dsimp only
    rw [SubscriptionIndex.identified_dropIdentifier, hi, Dict.pop, Dict.pop]
    split
    · rw [List.filter_filter, List.filter_filter]
      apply List.filter_congr
      intro item _
      rw [Bool.and_comm]
    · next hident =>
      rw [List.filter_filter]
      apply List.filter_congr
      intro item hitem
      by_cases hitem' : item.1 = filter
      · rw [(h.get?_iff hg hitem).1 hitem']
        simp [hident]
      · simp [hitem']

theorem register (h : Coherent idx) {filter : String} (entry : SubscriptionEntry)
    (hnot : filter ∉ idx.entries.keys) : Coherent (idx.register filter entry) := by
  refine ⟨h.toTrieOk.register entry hnot, h.proper.insert _ _, fun i => ?_⟩
  rw [SubscriptionIndex.entries_register entry hnot, List.filter_append]
  have hi := h.identified i
  rw [SubscriptionIndex.identified] at hi ⊢
  rw [SubscriptionIndex.register]
  rcases hident : entry.subscriptionIdentifier with _ | j
  · dsimp only
    simp [hi, hident]
  · dsimp only
    rw [Dict.get?_set]
    by_cases hji : j = i
    · subst hji
      have hkeys : filter ∉ Dict.keys ((idx.byIdentifier.get? j).getD []) := by
        rw [hi]
        intro hmem
        obtain ⟨item, hitem, rfl⟩ := List.mem_map.1 hmem
        exact hnot (Dict.mem_keys_of_mem (List.mem_filter.1 hitem).1)
      rw [if_pos rfl, Option.getD_some, Dict.set_of_not_mem entry hkeys, hi]
      simp [hident]
    · rw [if_neg hji, hi]
      simp [hident, hji]

theorem add (h : Coherent idx) (filter : String) (entry : SubscriptionEntry) :
    Coherent (idx.add filter entry) := by
  rw [SubscriptionIndex.add_eq]
  exact (h.remove filter).register entry (idx.not_mem_keys_entries_remove filter)

theorem addMany (h : Coherent idx) (entries : Dict String SubscriptionEntry) :
    Coherent (idx.addMany entries) := by
  rw [SubscriptionIndex.addMany]
  induction entries generalizing idx with
  | nil => exact h
  | cons item entries ih => exact ih (h.add item.1 item.2)

theorem apply (h : Coherent idx) (op : IndexOp) : Coherent (idx.apply op) := by
  cases op with
  | add filter entry => exact h.add filter entry
  | addMany entries => exact h.addMany entries
  | remove filter => exact h.remove filter
  | clear => exact empty

theorem run (ops : List IndexOp) : Coherent (SubscriptionIndex.run ops) := by
  suffices hrun : ∀ (ops : List IndexOp) (idx : SubscriptionIndex), Coherent idx →
      Coherent (ops.foldl SubscriptionIndex.apply idx) from hrun ops {} empty
  intro ops
  induction ops with
  | nil => exact fun idx h => h
  | cons op ops ih => exact fun idx h => ih _ (h.apply op)

end Coherent

/-! ## The latest registration of a filter -/

/-- The number of registrations so far, and the one that was the latest of each filter. -/
structure Moments where
  clock : Nat := 0
  latest : String → Nat := fun _ => 0

namespace Moments

def register (m : Moments) (filter : String) : Moments where
  clock := m.clock + 1
  latest := Function.update m.latest filter m.clock

def apply (m : Moments) : IndexOp → Moments
  | .add filter _ => m.register filter
  | .addMany entries => entries.foldl (fun m item => m.register item.1) m
  | .remove _ | .clear => m

end Moments

/-- When a filter was registered for the last time. -/
def latestRegistration (ops : List IndexOp) : String → Nat :=
  (ops.foldl Moments.apply {}).latest

/-- The entries stand in the order of their latest registration. -/
structure Ordered (entries : Dict String SubscriptionEntry) (m : Moments) : Prop where
  order : entries.Pairwise fun a b => m.latest a.1 < m.latest b.1
  past : ∀ item ∈ entries, m.latest item.1 < m.clock

namespace Ordered

variable {entries : Dict String SubscriptionEntry} {m : Moments} {idx : SubscriptionIndex}

theorem pop (h : Ordered entries m) (filter : String) : Ordered (entries.pop filter) m :=
  ⟨h.order.filter _, fun item hitem => h.past item (List.mem_filter.1 hitem).1⟩

theorem append (h : Ordered entries m) {filter : String} (entry : SubscriptionEntry)
    (hnot : filter ∉ entries.keys) : Ordered (entries ++ [(filter, entry)]) (m.register filter) := by
  have hkeep : ∀ item ∈ entries, (m.register filter).latest item.1 = m.latest item.1 := by
    intro item hitem
    refine Function.update_of_ne ?_ _ _
    intro he
    exact hnot (he ▸ Dict.mem_keys_of_mem hitem)
  have hnew : (m.register filter).latest filter = m.clock := Function.update_self _ _ _
  constructor
  · refine List.pairwise_append.2 ⟨?_, List.pairwise_singleton _ _, ?_⟩
    · refine h.order.imp_of_mem ?_
      intro a b ha hb hab
      rw [hkeep a ha, hkeep b hb]
      exact hab
    · intro a ha b hb
      rw [List.mem_singleton] at hb
      rw [hb, hkeep a ha, hnew]
      exact h.past a ha
  · intro item hitem
    rcases List.mem_append.1 hitem with hitem | hitem
    · rw [hkeep item hitem]
      exact Nat.lt_succ_of_lt (h.past item hitem)
    · rw [List.mem_singleton.1 hitem, hnew]
      exact Nat.lt_succ_self m.clock

theorem add (h : Ordered idx.entries m) (filter : String) (entry : SubscriptionEntry) :
    Ordered (idx.add filter entry).entries (m.register filter) := by
  rw [SubscriptionIndex.entries_add]
  exact (h.pop filter).append entry (Dict.not_mem_keys_pop idx.entries filter)

theorem apply (h : Ordered idx.entries m) (op : IndexOp) :
    Ordered (idx.apply op).entries (m.apply op) := by
  cases op with
  | add filter entry => exact h.add filter entry
  | remove filter =>
    rw [SubscriptionIndex.apply, SubscriptionIndex.entries_remove]
    exact h.pop filter
  | clear => exact ⟨List.Pairwise.nil, fun item hitem => by cases hitem⟩
  | addMany entries =>
    rw [SubscriptionIndex.apply, SubscriptionIndex.addMany, Moments.apply]
    induction entries generalizing idx m with
    | nil => exact h
    | cons item entries ih => exact ih (h.add item.1 item.2)

theorem run (ops : List IndexOp) :
    Ordered (SubscriptionIndex.run ops).entries (ops.foldl Moments.apply {}) := by
  suffices hrun : ∀ (ops : List IndexOp) (idx : SubscriptionIndex) (m : Moments),
      Ordered idx.entries m →
      Ordered (ops.foldl SubscriptionIndex.apply idx).entries (ops.foldl Moments.apply m) from
    hrun ops {} {} ⟨List.Pairwise.nil, fun item hitem => by cases hitem⟩
  intro ops
  induction ops with
  | nil => exact fun idx m h => h
  | cons op ops ih => exact fun idx m h => ih _ _ (h.apply op)

end Ordered

/-! ## Selection -/

/-- The selection among the items of `candidates` for a topic: a minimal filter, and the oldest
    registration of it. -/
structure PicksMinimal (candidates : Item → Prop) (latest : String → Nat) (topic : String)
    (selection : SubscriptionSelection) : Prop where
  recipient : ∃ item, selection.recipient = some item ∧ candidates item ∧
    MqttMatches (actualFilter item) topic ∧
    ∀ other, candidates other → MqttMatches (actualFilter other) topic →
      ¬ matchedTopics (actualFilter other) ⊂ matchedTopics (actualFilter item)
  tied : selection.tiedFilters ≠ [] → ∃ item, selection.recipient = some item ∧
    item.1 ∈ selection.tiedFilters ∧
    ∀ filter ∈ selection.tiedFilters, ∃ entry, candidates (filter, entry) ∧
      actualFilter (filter, entry) = actualFilter item ∧ latest item.1 ≤ latest filter

/-- The winners of `_select_from`. -/
theorem selectFrom_winners {candidates : List Item} (hne : candidates ≠ []) :
    ∃ item rest, (candidates.filter fun other => specificity other = specificity item) =
        item :: rest ∧
      (∀ other ∈ candidates, specificity item ≤ specificity other) ∧
      SubscriptionIndex.selectFrom candidates =
        { recipient := some item
          tiedFilters := if (item :: rest).length > 1 then (item :: rest).map Prod.fst else [] } := by
  rw [SubscriptionIndex.selectFrom]
  rcases hmin : (candidates.map specificity).min? with _ | key
  · rw [List.min?_eq_none_iff, List.map_eq_nil_iff] at hmin
    exact absurd hmin hne
  · obtain ⟨hkey, hle⟩ := List.min?_eq_some_iff.1 hmin
    rcases hw : candidates.filter fun item => specificity item = key with _ | ⟨item, rest⟩
    · obtain ⟨item, hitem, hspec⟩ := List.mem_map.1 hkey
      rw [List.filter_eq_nil_iff] at hw
      exact absurd (decide_eq_true hspec) (hw item hitem)
    · have hitem : specificity item = key := by
        have hmem : item ∈ candidates.filter fun item => specificity item = key := by
          rw [hw]
          exact List.mem_cons_self
        simpa using (List.mem_filter.1 hmem).2
      refine ⟨item, rest, ?_, ?_, ?_⟩
      · rw [hitem]
        exact hw
      · intro other hother
        rw [hitem]
        exact hle _ (List.mem_map.2 ⟨other, hother, rfl⟩)
      · dsimp only
        rw [hw]
        rfl

/-- `_select_from` picks a minimal filter of its candidates, and the oldest registration when
    those of each rank stand in the order of the entries. -/
theorem PicksMinimal.selectFrom {entries : Dict String SubscriptionEntry} {m : Moments}
    (hord : Ordered entries m) {candidates : Item → Prop} {topic : String} {l : List Item}
    (ht : WildcardFree topic) (hne : l ≠ [])
    (hl : ∀ item, item ∈ l ↔ candidates item ∧ MqttMatches (actualFilter item) topic)
    (hok : ∀ item ∈ l, LevelsOk (itemPath item))
    (hsub : ∀ key, (l.filter fun item => specificity item = key).Sublist entries) :
    PicksMinimal candidates m.latest topic (SubscriptionIndex.selectFrom l) := by
  obtain ⟨item, rest, hw, hle, hsel⟩ := selectFrom_winners hne
  have hwinner : ∀ other ∈ item :: rest, other ∈ l ∧ specificity other = specificity item := by
    intro other hother
    rw [← hw] at hother
    simpa using List.mem_filter.1 hother
  obtain ⟨hitem, -⟩ := hwinner item List.mem_cons_self
  obtain ⟨hcand, hmatch⟩ := (hl item).1 hitem
  rw [hsel]
  refine ⟨⟨item, rfl, hcand, hmatch, ?_⟩, ?_⟩
  · intro other hother hotherMatch hss
    have hmem := (hl other).2 ⟨hother, hotherMatch⟩
    exact absurd (hle other hmem) (not_le.2 (specificity_lt_of_ssubset (hok other hmem)
      (hok item hitem) ⟨ht, hotherMatch⟩ ⟨ht, hmatch⟩ hss))
  · dsimp only
    intro htied
    split at htied
    · next hlen =>
      rw [if_pos hlen]
      refine ⟨item, rfl, List.mem_map.2 ⟨item, List.mem_cons_self, rfl⟩, ?_⟩
      have horder := hord.order.sublist (hsub (specificity item))
      rw [hw, List.pairwise_cons] at horder
      intro filter hfilter
      obtain ⟨other, hother, rfl⟩ := List.mem_map.1 hfilter
      obtain ⟨hmem, hspec⟩ := hwinner other hother
      obtain ⟨hotherCand, hotherMatch⟩ := (hl other).1 hmem
      refine ⟨other.2, hotherCand, eq_of_specificity_eq (hok other hmem) (hok item hitem)
        hotherMatch hmatch hspec, ?_⟩
      rcases List.mem_cons.1 hother with rfl | hother
      · exact le_refl _
      · exact (horder.1 other hother).le
    · exact absurd rfl htied

/-! ## The candidates -/

section Candidates

variable {idx : SubscriptionIndex} {r : Registration} {topic : String}

/-- The walk over a topic lists the items of a path that it visits in the order of the
    entries. -/
theorem TrieOk.filter_collect (h : TrieOk idx) {ts p : List String} (ht : PlainLevels ts)
    (hp : p ∈ visits ts) :
    (idx.root.collect ts).filter (fun item => itemPath item = p) =
      idx.entries.filter fun item => itemPath item = p := by
  rw [Node.collect_eq ht, List.filter_flatMap,
    flatMap_eq_of_nodup (nodup_visits ht) hp, h.path, List.filter_filter]
  · simp
  · intro q _ hqp
    rw [h.path, List.filter_filter, List.filter_eq_nil_iff]
    intro item _
    simp only [Bool.and_eq_true, decide_eq_true_eq, not_and]
    intro he hq
    exact hqp (hq.symm.trans he)

/-- The matches are the registered items whose filter matches the topic. -/
theorem Represents.mem_matchTopic (h : Represents idx r) (ht : WildcardFree topic) (item : Item) :
    item ∈ idx.matchTopic topic ↔ r item.1 = some item.2 ∧ MqttMatches (actualFilter item) topic := by
  rw [(idx.perm_matchTopic topic).mem_iff, List.mem_filter, h.mem_collect ht]
  constructor
  · rintro ⟨⟨hr, -⟩, hm⟩
    exact ⟨hr, (topicMatchesActual_iff (h.built _ _ hr).levelsOk).1 hm⟩
  · rintro ⟨hr, hm⟩
    exact ⟨⟨hr, hm.1⟩, (topicMatchesActual_iff (h.built _ _ hr).levelsOk).2 hm⟩

/-- The matches of one specificity are the items of one path, in the order of the entries. -/
theorem Represents.sublist_matchTopic (h : Represents idx r) (ht : WildcardFree topic)
    (key : List Nat) :
    ((idx.matchTopic topic).filter fun item => specificity item = key).Sublist idx.entries := by
  rw [SubscriptionIndex.matchTopic, filter_insertionSort fun a b he => he.le]
  rcases hl : ((idx.root.collect (splitLevels topic)).filter fun item =>
      topicMatchesActual (actualFilter item) topic).filter (fun item => specificity item = key)
    with _ | ⟨first, others⟩
  · exact List.nil_sublist _
  · have hmatch : ∀ item ∈ idx.root.collect (splitLevels topic),
        LevelsOk (itemPath item) ∧ (topicMatchesActual (actualFilter item) topic = true ↔
          MqttMatches (actualFilter item) topic) := by
      intro item hitem
      have hok := (h.built _ _ ((h.mem_collect ht item).1 hitem).1).levelsOk
      exact ⟨hok, topicMatchesActual_iff hok⟩
    have hfirst : first ∈ (first :: others : List Item) := List.mem_cons_self
    rw [← hl, List.mem_filter, List.mem_filter, decide_eq_true_eq] at hfirst
    obtain ⟨⟨hmem, hfm⟩, hkey⟩ := hfirst
    have hpath : itemPath first ∈ visits (splitLevels topic) :=
      (mem_visits_iff ht.plainLevels).2 ((h.mem_collect ht first).1 hmem).2
    rw [← hl, List.filter_filter]
    have hcongr : ((idx.root.collect (splitLevels topic)).filter fun item =>
        decide (specificity item = key) && topicMatchesActual (actualFilter item) topic) =
        (idx.root.collect (splitLevels topic)).filter fun item => itemPath item = itemPath first := by
      apply List.filter_congr
      intro item hitem
      rw [Bool.eq_iff_iff, Bool.and_eq_true, decide_eq_true_eq, decide_eq_true_eq]
      constructor
      · rintro ⟨hspec, hm⟩
        exact congrArg splitLevels (eq_of_specificity_eq (hmatch item hitem).1 (hmatch first hmem).1
          ((hmatch item hitem).2.1 hm) ((hmatch first hmem).2.1 hfm) (hspec.trans hkey.symm))
      · intro he
        have hactual := splitLevels_injective he
        rw [specificity, hactual]
        exact ⟨hkey, hfm⟩
    rw [hcongr, h.toTrieOk.filter_collect ht.plainLevels hpath]
    exact List.filter_sublist

end Candidates

/-- What is registered with an effective filter that matches the topic. -/
def Registered (ops : List IndexOp) (item : Item) : Prop := registered ops item.1 = some item.2

/-- **Routing picks a minimal filter and breaks ties by registration.** After any sequence of
    operations with filters that were validated and entries built by `_subscribe`, for every
    topic that some registered effective filter matches: no other one that matches it matches
    strictly fewer topics than the chosen one, and tied entries have the same effective filter,
    of which the oldest is chosen. The same holds among the entries of an identifier. -/
theorem select_minimal (ops : List IndexOp) (hops : ∀ op ∈ ops, op.Valid) (topic : String)
    (ht : WildcardFree topic) :
    ((∃ item, Registered ops item ∧ MqttMatches (actualFilter item) topic) →
      PicksMinimal (Registered ops) (latestRegistration ops) topic
        ((SubscriptionIndex.run ops).select topic)) ∧
    ∀ i, (∃ item, (Registered ops item ∧ item.2.subscriptionIdentifier = some i) ∧
        MqttMatches (actualFilter item) topic) →
      PicksMinimal (fun item => Registered ops item ∧ item.2.subscriptionIdentifier = some i)
        (latestRegistration ops) topic
        ((SubscriptionIndex.run ops).selectByIdentifier topic i) := by
  have h := represents_run hops
  have hcoherent := Coherent.run ops
  have hord := Ordered.run ops
  have hmem : ∀ filter entry, (filter, entry) ∈ (SubscriptionIndex.run ops).matchTopic topic ↔
      registered ops filter = some entry ∧ MqttMatches (actualFilter (filter, entry)) topic :=
    fun filter entry => h.mem_matchTopic ht (filter, entry)
  constructor
  · rintro ⟨item, hitem, hm⟩
    refine PicksMinimal.selectFrom hord ht ?_ (fun item => hmem item.1 item.2) ?_
      (h.sublist_matchTopic ht)
    · exact List.ne_nil_of_mem ((hmem item.1 item.2).2 ⟨hitem, hm⟩)
    · exact fun item hitem => (h.built _ _ ((hmem item.1 item.2).1 hitem).1).levelsOk
  · rintro i ⟨item, hitem, hm⟩
    have hentry : ∀ item, item ∈ (SubscriptionIndex.run ops).identified i ↔
        Registered ops item ∧ item.2.subscriptionIdentifier = some i := by
      intro item
      rw [hcoherent.identified, List.mem_filter, decide_eq_true_eq, Registered, ← h.get,
        ← Dict.mem_iff_get? h.nodup]
    have hmatching : ∀ item, item ∈ ((SubscriptionIndex.run ops).identified i).filter (fun item =>
        topicMatchesActual (actualFilter item) topic) ↔
        (Registered ops item ∧ item.2.subscriptionIdentifier = some i) ∧
          MqttMatches (actualFilter item) topic := by
      intro item
      rw [List.mem_filter, hentry]
      refine and_congr_right fun hreg => ?_
      exact topicMatchesActual_iff (h.built _ _ hreg.1).levelsOk
    have hne := List.ne_nil_of_mem ((hentry item).2 hitem)
    have hne' := List.ne_nil_of_mem ((hmatching item).2 ⟨hitem, hm⟩)
    rw [SubscriptionIndex.selectByIdentifier, if_neg (by simpa using hne)]
    dsimp only
    rw [if_neg (by simpa using hne')]
    refine PicksMinimal.selectFrom hord ht hne' hmatching ?_ ?_
    · exact fun item hitem => (h.built _ _ ((hmatching item).1 hitem).1.1).levelsOk
    · intro key
      rw [hcoherent.identified]
      exact List.filter_sublist.trans (List.filter_sublist.trans List.filter_sublist)

/-- Two shared subscriptions of one filter, registered in turn, and a wider one; the first is
    registered again. -/
def tiedOps : List IndexOp :=
  [.add "$share/g/a/+" { queue := 0, actualFilter := "a/+" },
    .add "a/+" { queue := 1, actualFilter := "a/+", subscriptionIdentifier := some 7 },
    .add "a/#" { queue := 2, actualFilter := "a/#", subscriptionIdentifier := some 7 },
    .add "$share/g/a/+" { queue := 3, actualFilter := "a/+", subscriptionIdentifier := some 7 }]

theorem select_minimal_tiedOps :
    PicksMinimal (Registered tiedOps) (latestRegistration tiedOps) "a/b"
      ((SubscriptionIndex.run tiedOps).select "a/b") ∧
    ((SubscriptionIndex.run tiedOps).select "a/b").tiedFilters = ["a/+", "$share/g/a/+"] ∧
    PicksMinimal (fun item => Registered tiedOps item ∧ item.2.subscriptionIdentifier = some 7)
      (latestRegistration tiedOps) "a/b"
      ((SubscriptionIndex.run tiedOps).selectByIdentifier "a/b" 7) := by
  have hops : ∀ op ∈ tiedOps, op.Valid := by
    simp only [tiedOps, List.forall_mem_cons]
    exact ⟨⟨by decide +kernel, [], by decide +kernel⟩, ⟨by decide +kernel, [], by decide +kernel⟩,
      ⟨by decide +kernel, [], by decide +kernel⟩, ⟨by decide +kernel, [], by decide +kernel⟩,
      by simp⟩
  have h := select_minimal tiedOps hops "a/b" ⟨by decide, by decide⟩
  have hmatch : MqttMatches "a/+" "a/b" :=
    (topicMatchesActual_iff (validateSubscribeTopic_levels (by decide +kernel))).1 (by decide +kernel)
  have hreg : Registered tiedOps
      ("a/+", { queue := 1, actualFilter := "a/+", subscriptionIdentifier := some 7 }) := by
    rw [Registered]
    decide +kernel
  exact ⟨h.1 ⟨_, hreg, hmatch⟩, by decide +kernel, h.2 7 ⟨_, ⟨hreg, rfl⟩, hmatch⟩⟩

end Zmqtt
