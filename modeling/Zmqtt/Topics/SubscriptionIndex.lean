/-
  The subscription index (`_internal/subscription_index.py`): a trie of topic levels
  with a map for literal and a map for wildcard children, the entries by filter, and
  the entries by subscription identifier.

  A node's entries are reached by a path of levels (`entriesAt`). Insertion and pruned
  removal change the entries at one path only (`entriesAt_insert`,
  `entriesAt_removeEntry`), so over any run of operations the trie holds at each path
  the registered items with these levels, in order of registration (`TrieOk`). The
  walk of `match` visits the paths that match the topic, each once (`collect_eq`,
  `mem_visits_iff`).
-/
import Zmqtt.Lib.Dict
import Zmqtt.Topics.Filter

namespace Zmqtt

/-- `SubscriptionEntry`; the queue stands for its identity. -/
structure SubscriptionEntry where
  queue : Nat
  autoAck : Bool := true
  actualFilter : String := ""
  subscriptionIdentifier : Option Int := none
  deriving Repr, DecidableEq

/-- A filter as it was subscribed, and its entry. -/
abbrev Item := String × SubscriptionEntry

/-- `_actual_filter`: the filter that is matched and stored in the trie. -/
def actualFilter (item : Item) : String :=
  if item.2.actualFilter = "" then item.1 else item.2.actualFilter

/-- The path of an item in the trie. -/
def itemPath (item : Item) : List String := splitLevels (actualFilter item)

/-- `_Node`. -/
inductive Node where
  | mk (children wildcardChildren : List (String × Node)) (entries : List Item)

namespace Node

def children : Node → Dict String Node
  | mk c _ _ => c

def wildcardChildren : Node → Dict String Node
  | mk _ w _ => w

def entries : Node → List Item
  | mk _ _ es => es

/-- `_Node()`. -/
def empty : Node := mk [] [] []

/-- The map that holds the child for a level. -/
def mapping (node : Node) (part : String) : Dict String Node :=
  if part = "+" ∨ part = "#" then node.wildcardChildren else node.children

/-- The node after its map for `part` became `m`. -/
def setMapping (node : Node) (part : String) (m : Dict String Node) : Node :=
  if part = "+" ∨ part = "#" then mk node.children m node.entries
  else mk m node.wildcardChildren node.entries

/-- The descent of `add`: `setdefault` on every level, then append the item. -/
def insert : List String → Item → Node → Node
  | [], item, node => mk node.children node.wildcardChildren (node.entries ++ [item])
  | part :: parts, item, node =>
      let child := ((node.mapping part).get? part).getD empty
      node.setMapping part ((node.mapping part).set part (insert parts item child))

/-- `not child.children and not child.wildcard_children and not child.entries`. -/
def isDead (node : Node) : Bool :=
  node.children.isEmpty && node.wildcardChildren.isEmpty && node.entries.isEmpty

/-- `_remove_entry`. A node holds at most one pair for a filter, so the test of object
    identity on the entry is equality of the pair. -/
def removeEntry : List String → Item → Node → Node
  | [], item, node =>
      mk node.children node.wildcardChildren (node.entries.filter fun other => other ≠ item)
  | part :: parts, item, node =>
      match (node.mapping part).get? part with
      | none => node
      | some child =>
          let child' := removeEntry parts item child
          if child'.isDead then node.setMapping part ((node.mapping part).pop part)
          else node.setMapping part ((node.mapping part).set part child')

/-- The entries under a child `#`. -/
def hashEntries (node : Node) : List Item :=
  match node.wildcardChildren.get? "#" with
  | some child => child.entries
  | none => []

/-- `_collect`; the levels are those from `idx` on. -/
def collect : List String → Node → List Item
  | [], node => node.hashEntries ++ node.entries
  | part :: parts, node =>
      node.hashEntries ++
        ((match node.children.get? part with
          | some child => collect parts child
          | none => []) ++
        (match node.wildcardChildren.get? "+" with
          | some child => collect parts child
          | none => []))

end Node

/-- `SubscriptionSelection`. -/
structure SubscriptionSelection where
  recipient : Option Item
  identifierMissing : Bool := false
  tiedFilters : List String := []

/-- `SubscriptionIndex`. -/
structure SubscriptionIndex where
  root : Node := Node.empty
  entries : Dict String SubscriptionEntry := []
  byIdentifier : Dict Int (Dict String SubscriptionEntry) := []
  responseObservers : List String := []

/-- `_specificity`. -/
def specificity (item : Item) : List Nat := filterSpecificity (actualFilter item)

namespace SubscriptionIndex

/-- The removal of a filter from `_by_identifier`. -/
def dropIdentifier (byIdentifier : Dict Int (Dict String SubscriptionEntry)) (filter : String)
    (identifier : Option Int) : Dict Int (Dict String SubscriptionEntry) :=
  match identifier with
  | none => byIdentifier
  | some i =>
      match byIdentifier.get? i with
      | none => byIdentifier
      | some identified =>
          if (identified.pop filter).isEmpty then byIdentifier.pop i
          else byIdentifier.set i (identified.pop filter)

/-- `remove`, the index left (the entry it returns is `idx.entries.get? filter`). -/
def remove (idx : SubscriptionIndex) (filter : String) : SubscriptionIndex :=
  match idx.entries.get? filter with
  | none => idx
  | some entry =>
      { idx with
        entries := idx.entries.pop filter
        root := idx.root.removeEntry (itemPath (filter, entry)) (filter, entry)
        byIdentifier := dropIdentifier idx.byIdentifier filter entry.subscriptionIdentifier }

/-- The registration of a filter that is not in the index. -/
def register (idx : SubscriptionIndex) (filter : String) (entry : SubscriptionEntry) :
    SubscriptionIndex :=
  { idx with
    root := idx.root.insert (itemPath (filter, entry)) (filter, entry)
    entries := idx.entries.set filter entry
    byIdentifier :=
      match entry.subscriptionIdentifier with
      | none => idx.byIdentifier
      | some i =>
          idx.byIdentifier.set i (((idx.byIdentifier.get? i).getD []).set filter entry) }

/-- `add`. -/
def add (idx : SubscriptionIndex) (filter : String) (entry : SubscriptionEntry) :
    SubscriptionIndex :=
  (if (idx.entries.get? filter).isSome then idx.remove filter else idx).register filter entry

/-- `add_many`. -/
def addMany (idx : SubscriptionIndex) (entries : Dict String SubscriptionEntry) :
    SubscriptionIndex :=
  entries.foldl (fun idx item => idx.add item.1 item.2) idx

/-- `clear`. -/
def clear (_idx : SubscriptionIndex) : SubscriptionIndex := {}

/-- `contains`. -/
def contains (idx : SubscriptionIndex) (filter : String) : Bool :=
  (idx.entries.get? filter).isSome

/-- `has_response_observer`. -/
def hasResponseObserver (idx : SubscriptionIndex) (topic : String) : Bool :=
  idx.responseObservers.contains topic

/-- `add_response_observer`, the index left; it returns `not has_response_observer`. -/
def addResponseObserver (idx : SubscriptionIndex) (topic : String) : SubscriptionIndex :=
  if idx.hasResponseObserver topic then idx
  else { idx with responseObservers := topic :: idx.responseObservers }

/-- `remove_response_observer`, the index left; it returns `has_response_observer`. -/
def removeResponseObserver (idx : SubscriptionIndex) (topic : String) : SubscriptionIndex :=
  { idx with responseObservers := idx.responseObservers.filter (· ≠ topic) }

/-- `match`. -/
def matchTopic (idx : SubscriptionIndex) (topic : String) : List Item :=
  ((idx.root.collect (splitLevels topic)).filter fun item =>
    topicMatchesActual (actualFilter item) topic).insertionSort fun a b =>
      specificity a ≤ specificity b

/-- `_select_from`. -/
def selectFrom (candidates : List Item) : SubscriptionSelection :=
  match (candidates.map specificity).min? with
  | none => { recipient := none }
  | some bestKey =>
      let winners := candidates.filter fun item => specificity item = bestKey
      { recipient := winners.head?
        tiedFilters := if winners.length > 1 then winners.map Prod.fst else [] }

/-- `select`. -/
def select (idx : SubscriptionIndex) (topic : String) : SubscriptionSelection :=
  selectFrom (idx.matchTopic topic)

/-- `by_identifier`. -/
def identified (idx : SubscriptionIndex) (identifier : Int) : List Item :=
  (idx.byIdentifier.get? identifier).getD []

/-- `select_by_identifier`. -/
def selectByIdentifier (idx : SubscriptionIndex) (topic : String) (identifier : Int) :
    SubscriptionSelection :=
  if (idx.identified identifier).isEmpty then
    { idx.select topic with identifierMissing := true }
  else
    let matching := (idx.identified identifier).filter fun item =>
      topicMatchesActual (actualFilter item) topic
    selectFrom (if matching.isEmpty then idx.identified identifier else matching)

end SubscriptionIndex

/-! ## The entries at a path -/

namespace Node

/-- The child for a level. -/
def child? (node : Node) (part : String) : Option Node := (node.mapping part).get? part

/-- The entries at the end of a path of levels. -/
def entriesAt : List String → Node → List Item
  | [], node => node.entries
  | part :: parts, node =>
      match node.child? part with
      | some child => entriesAt parts child
      | none => []

@[simp] theorem entries_setMapping (node : Node) (part : String) (m : Dict String Node) :
    (node.setMapping part m).entries = node.entries := by
  unfold setMapping
  split <;> rfl

theorem child?_setMapping (node : Node) (part part' : String) (m : Dict String Node)
    (hm : ∀ p, p ≠ part → m.get? p = (node.mapping part).get? p) :
    (node.setMapping part m).child? part' =
      if part = part' then m.get? part else node.child? part' := by
  unfold child?
  by_cases h : part = part'
  · subst h
    rw [if_pos rfl]
    unfold setMapping mapping
    split <;> rfl
  · rw [if_neg h]
    unfold setMapping mapping at *
    by_cases hw : part = "+" ∨ part = "#"
    · by_cases hw' : part' = "+" ∨ part' = "#"
      · simp only [if_pos hw, if_pos hw'] at hm ⊢
        exact hm part' (Ne.symm h)
      · simp only [if_pos hw, if_neg hw'] at hm ⊢
        rfl
    · by_cases hw' : part' = "+" ∨ part' = "#"
      · simp only [if_neg hw, if_pos hw'] at hm ⊢
        rfl
      · simp only [if_neg hw, if_neg hw'] at hm ⊢
        exact hm part' (Ne.symm h)

theorem child?_set (node : Node) (part part' : String) (child : Node) :
    (node.setMapping part ((node.mapping part).set part child)).child? part' =
      if part = part' then some child else node.child? part' := by
  rw [child?_setMapping]
  · rw [Dict.get?_set, if_pos rfl]
  · intro p hp
    rw [Dict.get?_set, if_neg (Ne.symm hp)]

theorem child?_pop (node : Node) (part part' : String) :
    (node.setMapping part ((node.mapping part).pop part)).child? part' =
      if part = part' then none else node.child? part' := by
  rw [child?_setMapping]
  · rw [Dict.get?_pop, if_pos rfl]
  · intro p hp
    rw [Dict.get?_pop, if_neg (Ne.symm hp)]

@[simp] theorem entriesAt_empty (path : List String) : entriesAt path empty = [] := by
  cases path with
  | nil => rfl
  | cons part parts =>
    have : empty.child? part = none := by
      unfold child? mapping
      split <;> rfl
    rw [entriesAt, this]

/-- A dead node has no entries at or below it. -/
theorem entriesAt_of_isDead {node : Node} (h : node.isDead = true) (path : List String) :
    entriesAt path node = [] := by
  obtain ⟨c, w, es⟩ := node
  simp only [isDead, children, wildcardChildren, entries, Bool.and_eq_true,
    List.isEmpty_iff] at h
  obtain ⟨⟨rfl, rfl⟩, rfl⟩ := h
  exact entriesAt_empty path

/-- Insertion appends the item at its path and changes no other path. -/
theorem entriesAt_insert (path path' : List String) (item : Item) (node : Node) :
    entriesAt path' (insert path item node) =
      if path' = path then entriesAt path' node ++ [item] else entriesAt path' node := by
  induction path generalizing path' node with
  | nil =>
    cases path' with
    | nil => rfl
    | cons part parts => rfl
  | cons part parts ih =>
    rw [insert]
    cases path' with
    | nil => simp [entriesAt]
    | cons part' parts' =>
      rw [entriesAt, child?_set, entriesAt]
      by_cases h : part = part'
      · subst h
        rw [if_pos rfl]
        have hc : (node.mapping part).get? part = node.child? part := rfl
        simp only [ih, hc, List.cons.injEq, true_and]
        rcases node.child? part with _ | child
        · simp
        · simp
      · rw [if_neg h, if_neg]
        intro he
        exact h (List.cons.inj he).1.symm

/-- Removal filters the item out at its path and changes no other path; pruning only
    drops nodes without entries. -/
theorem entriesAt_removeEntry (path path' : List String) (item : Item) (node : Node) :
    entriesAt path' (removeEntry path item node) =
      if path' = path then (entriesAt path' node).filter (fun other => other ≠ item)
      else entriesAt path' node := by
  induction path generalizing path' node with
  | nil =>
    cases path' with
    | nil => rfl
    | cons part parts => rfl
  | cons part parts ih =>
    rw [removeEntry]
    rcases hc : (node.mapping part).get? part with _ | child
    · dsimp only
      split
      · next he =>
        subst he
        simp only [entriesAt, child?, hc, List.filter_nil]
      · rfl
    · dsimp only
      have hchild : node.child? part = some child := hc
      -- a pruned child had become dead, so its paths hold nothing either way
      have hstep : ∀ part' parts', entriesAt (part' :: parts')
          (if (removeEntry parts item child).isDead = true then
            node.setMapping part ((node.mapping part).pop part)
          else node.setMapping part ((node.mapping part).set part (removeEntry parts item child))) =
          if part = part' then entriesAt parts' (removeEntry parts item child)
          else entriesAt (part' :: parts') node := by
        intro part' parts'
        split
        · next hdead =>
          rw [entriesAt, child?_pop]
          by_cases h : part = part'
          · rw [if_pos h, if_pos h, entriesAt_of_isDead hdead]
          · rw [if_neg h, if_neg h, entriesAt]
        · rw [entriesAt, child?_set]
          by_cases h : part = part'
          · rw [if_pos h, if_pos h]
          · rw [if_neg h, if_neg h, entriesAt]
      cases path' with
      | nil =>
        rw [if_neg (show ¬ [] = part :: parts by simp)]
        split
        · simp [entriesAt]
        · simp [entriesAt]
      | cons part' parts' =>
        rw [hstep, ih]
        by_cases h : part = part'
        · subst h
          simp only [if_true, List.cons.injEq, true_and, entriesAt, hchild]
        · rw [if_neg h, if_neg]
          intro he
          exact h (List.cons.inj he).1.symm

end Node

/-! ## The walk of `match` -/

/-- The paths that the walk over a topic's levels visits. -/
def visits : List String → List (List String)
  | [] => [["#"], []]
  | t :: ts => ["#"] :: ((visits ts).map (List.cons t) ++ (visits ts).map (List.cons "+"))

/-- The levels of a topic without wildcards. -/
def PlainLevels (ts : List String) : Prop := ∀ t ∈ ts, t ≠ "+" ∧ t ≠ "#"

theorem WildcardFree.plainLevels {topic : String} (h : WildcardFree topic) :
    PlainLevels (splitLevels topic) := by
  intro t ht
  constructor
  · rintro rfl
    exact h.1 (mem_of_mem_splitLevels ht (by decide))
  · rintro rfl
    exact h.2 (mem_of_mem_splitLevels ht (by decide))

/-- The walk visits exactly the paths that match by the declarative rule. -/
theorem mem_visits_iff {fs ts : List String} (ht : PlainLevels ts) :
    fs ∈ visits ts ↔ LevelsMatch fs ts := by
  induction ts generalizing fs with
  | nil => rw [levelsMatch_nil, visits]; simp [or_comm]
  | cons t ts ih =>
    obtain ⟨⟨htp, hth⟩, hts⟩ := List.forall_mem_cons.1 ht
    rw [visits]
    cases fs with
    | nil => simp [levelsMatch_nil_left]
    | cons f fs =>
      by_cases hf : f = "#"
      · subst hf
        cases fs with
        | nil => simp [levelsMatch_hash]
        | cons x xs =>
          -- a `#` that is not last matches no plain level
          have hno : ¬ LevelsMatch ("#" :: x :: xs) (t :: ts) := by
            rintro (h | ⟨init, hd, rest, he, hr, h⟩)
            · obtain ⟨h1 | h1, -⟩ := List.forall₂_cons.1 h
              · exact absurd h1 (by decide)
              · exact hth h1.symm
            · cases init with
              | nil => simp at he
              | cons y ys =>
                cases h with
                | cons h1 _ =>
                  obtain ⟨rfl, -⟩ := List.cons.inj he
                  obtain ⟨rfl, -⟩ := List.cons.inj hr
                  rcases h1 with h1 | h1
                  · exact absurd h1 (by decide)
                  · exact hth h1.symm
          simp [hno, hth]
      · rw [levelsMatch_cons fs ts hf, ← ih hts]
        simp only [List.mem_cons, List.mem_append, List.mem_map, List.cons.injEq, hf, false_and,
          false_or, LevelMatches]
        constructor
        · rintro (⟨p, hp, rfl, rfl⟩ | ⟨p, hp, rfl, rfl⟩)
          · exact ⟨Or.inr rfl, hp⟩
          · exact ⟨Or.inl rfl, hp⟩
        · rintro ⟨rfl | rfl, hp⟩
          · exact Or.inr ⟨fs, hp, rfl, rfl⟩
          · exact Or.inl ⟨fs, hp, rfl, rfl⟩

theorem nodup_visits {ts : List String} (ht : PlainLevels ts) : (visits ts).Nodup := by
  induction ts with
  | nil => simp [visits]
  | cons t ts ih =>
    obtain ⟨⟨htp, hth⟩, hts⟩ := List.forall_mem_cons.1 ht
    have hcons : ∀ x : String, Function.Injective (List.cons x) :=
      fun x a b h => (List.cons.inj h).2
    rw [visits, List.nodup_cons, List.nodup_append]
    refine ⟨by simp [hth], (ih hts).map (hcons t), (ih hts).map (hcons "+"), ?_⟩
    intro a ha b hb hab
    obtain ⟨p, -, rfl⟩ := List.mem_map.1 ha
    obtain ⟨q, -, rfl⟩ := List.mem_map.1 hb
    exact htp (List.cons.inj hab).1

theorem Node.hashEntries_eq (node : Node) : node.hashEntries = Node.entriesAt ["#"] node := by
  have hc : node.child? "#" = node.wildcardChildren.get? "#" := rfl
  rw [Node.entriesAt, hc, Node.hashEntries]
  rfl

/-- The walk collects the entries at the visited paths. -/
theorem Node.collect_eq {ts : List String} (ht : PlainLevels ts) (node : Node) :
    node.collect ts = (visits ts).flatMap fun path => node.entriesAt path := by
  induction ts generalizing node with
  | nil => simp [Node.collect, visits, Node.hashEntries_eq, Node.entriesAt]
  | cons t ts ih =>
    obtain ⟨⟨htp, hth⟩, hts⟩ := List.forall_mem_cons.1 ht
    have hchild : node.child? t = node.children.get? t := by
      rw [Node.child?, Node.mapping, if_neg (not_or.2 ⟨htp, hth⟩)]
    have hplus : node.child? "+" = node.wildcardChildren.get? "+" := rfl
    have hmap : ∀ x : String, ((visits ts).map (List.cons x)).flatMap
        (fun path => node.entriesAt path) =
        match node.child? x with
        | some child => child.collect ts
        | none => [] := by
      intro x
      rw [List.flatMap_map]
      rcases hx : node.child? x with _ | child
      · simp [Node.entriesAt, hx]
      · simp [Node.entriesAt, hx, ih hts]
    rw [Node.collect, visits, List.flatMap_cons, List.flatMap_append, hmap t, hmap "+",
      Node.hashEntries_eq, hchild, hplus]

/-! ## Runs of operations -/

/-- The operations of the index that change what is registered. -/
inductive IndexOp where
  | add (filter : String) (entry : SubscriptionEntry)
  | addMany (entries : Dict String SubscriptionEntry)
  | remove (filter : String)
  | clear

namespace SubscriptionIndex

def apply (idx : SubscriptionIndex) : IndexOp → SubscriptionIndex
  | .add filter entry => idx.add filter entry
  | .addMany entries => idx.addMany entries
  | .remove filter => idx.remove filter
  | .clear => idx.clear

/-- The index reached by a sequence of operations. -/
def run (ops : List IndexOp) : SubscriptionIndex := ops.foldl apply {}

end SubscriptionIndex

/-- What is registered, as a map from filters to entries. -/
abbrev Registration := String → Option SubscriptionEntry

/-- The effect of an operation on what is registered: the specification of the index. -/
def IndexOp.spec (r : Registration) : IndexOp → Registration
  | .add filter entry => Function.update r filter (some entry)
  | .addMany entries => entries.foldl (fun r item => Function.update r item.1 (some item.2)) r
  | .remove filter => Function.update r filter none
  | .clear => fun _ => none

/-- What is registered after a sequence of operations. -/
def registered (ops : List IndexOp) : Registration := ops.foldl IndexOp.spec fun _ => none

/-- An entry as `_subscribe` builds it for a filter that `validate_subscribe_topic`
    accepted. -/
def Built (filter : String) (entry : SubscriptionEntry) : Prop :=
  validateSubscribeTopic filter = .ok () ∧
    ∃ strippedPrefixes, entry.actualFilter = sharedFilterToActual filter strippedPrefixes

/-- All the entries an operation adds are built by `_subscribe`. -/
def IndexOp.Valid : IndexOp → Prop
  | .add filter entry => Built filter entry
  | .addMany entries => ∀ item ∈ entries, Built item.1 item.2
  | .remove _ => True
  | .clear => True

/-- The trie and the entries agree: each path holds the registered items with these levels,
    in order of registration, and a filter is registered once. -/
structure TrieOk (idx : SubscriptionIndex) : Prop where
  path : ∀ p, idx.root.entriesAt p = idx.entries.filter fun item => itemPath item = p
  nodup : idx.entries.keys.Nodup

/-- The index holds what `r` says and nothing else, and all of it was built. -/
structure Represents (idx : SubscriptionIndex) (r : Registration) : Prop extends TrieOk idx where
  get : ∀ filter, idx.entries.get? filter = r filter
  built : ∀ filter entry, r filter = some entry → Built filter entry

theorem TrieOk.get?_iff {idx : SubscriptionIndex} (h : TrieOk idx) {filter : String}
    {entry : SubscriptionEntry} (hg : idx.entries.get? filter = some entry) {item : Item}
    (hitem : item ∈ idx.entries) : item.1 = filter ↔ item = (filter, entry) := by
  constructor
  · intro he
    have hm := (Dict.mem_iff_get? h.nodup item.1 item.2).1 hitem
    rw [he, hg] at hm
    exact Prod.ext he (Option.some.inj hm).symm
  · rintro rfl
    rfl

theorem TrieOk.remove {idx : SubscriptionIndex} (h : TrieOk idx) (filter : String) :
    TrieOk (idx.remove filter) := by
  rw [SubscriptionIndex.remove]
  rcases hg : idx.entries.get? filter with _ | entry
  · exact h
  · refine ⟨?_, Dict.nodup_keys_pop h.nodup filter⟩
    -- the item removed is the only one with this filter, so filtering by key and by item agree
    intro p
    dsimp only
    rw [Node.entriesAt_removeEntry, h.path, Dict.pop]
    split
    · next hp =>
      rw [List.filter_filter, List.filter_filter]
      apply List.filter_congr
      intro item hitem
      have hiff : decide (item ≠ (filter, entry)) = decide (item.1 ≠ filter) :=
        decide_eq_decide.2 (not_congr (h.get?_iff hg hitem).symm)
      rw [hiff, Bool.and_comm]
    · next hp =>
      rw [List.filter_filter]
      apply List.filter_congr
      intro item hitem
      by_cases hpath : itemPath item = p
      · have hne : item.1 ≠ filter := by
          intro he
          rw [(h.get?_iff hg hitem).1 he] at hpath
          exact hp hpath.symm
        simp [hpath, hne]
      · simp [hpath]

theorem TrieOk.register {idx : SubscriptionIndex} (h : TrieOk idx) {filter : String}
    (entry : SubscriptionEntry) (hnot : filter ∉ idx.entries.keys) :
    TrieOk (idx.register filter entry) := by
  have hset : idx.entries.set filter entry = idx.entries ++ [(filter, entry)] :=
    Dict.set_of_not_mem entry hnot
  refine ⟨?_, ?_⟩
  · intro p
    simp only [SubscriptionIndex.register]
    rw [Node.entriesAt_insert, h.path, hset, List.filter_append]
    split
    · next hp => simp [hp]
    · next hp => simp [Ne.symm hp]
  · simp only [SubscriptionIndex.register, hset, Dict.keys, List.map_append, List.map_cons,
      List.map_nil]
    refine List.nodup_append.2 ⟨h.nodup, List.nodup_singleton _, ?_⟩
    intro a ha b hb' hab
    rw [List.mem_singleton] at hb'
    exact hnot (hb' ▸ hab ▸ ha)

/-- Removing a filter, registered or not. -/
theorem Represents.remove {idx : SubscriptionIndex} {r : Registration} (h : Represents idx r)
    (filter : String) : Represents (idx.remove filter) (Function.update r filter none) := by
  refine ⟨h.toTrieOk.remove filter, ?_, ?_⟩
  · intro f
    rw [SubscriptionIndex.remove]
    by_cases hff : f = filter
    · subst hff
      rw [Function.update_self]
      rcases hg : idx.entries.get? f with _ | entry
      · exact hg
      · dsimp only
        rw [Dict.get?_pop, if_pos rfl]
    · rw [Function.update_of_ne hff, ← h.get]
      split
      · rfl
      · dsimp only
        rw [Dict.get?_pop, if_neg (Ne.symm hff)]
  · intro f e hf
    by_cases hff : f = filter
    · subst hff
      simp at hf
    · rw [Function.update_of_ne hff] at hf
      exact h.built f e hf

/-- Registering a filter that is not in the index. -/
theorem Represents.register {idx : SubscriptionIndex} {r : Registration} (h : Represents idx r)
    {filter : String} {entry : SubscriptionEntry} (hr : r filter = none)
    (hb : Built filter entry) :
    Represents (idx.register filter entry) (Function.update r filter (some entry)) := by
  have hnot : filter ∉ idx.entries.keys := by
    rw [← Dict.get?_eq_none_iff, h.get, hr]
  refine ⟨h.toTrieOk.register entry hnot, ?_, ?_⟩
  · intro f
    simp only [SubscriptionIndex.register]
    rw [Dict.get?_set, h.get]
    by_cases hff : filter = f
    · subst hff; simp
    · rw [if_neg hff, Function.update_of_ne (Ne.symm hff)]
  · intro f e hf
    by_cases hff : f = filter
    · subst hff
      rw [Function.update_self] at hf
      exact Option.some.inj hf ▸ hb
    · rw [Function.update_of_ne hff] at hf
      exact h.built f e hf

theorem Represents.add {idx : SubscriptionIndex} {r : Registration} (h : Represents idx r)
    {filter : String} {entry : SubscriptionEntry} (hb : Built filter entry) :
    Represents (idx.add filter entry) (Function.update r filter (some entry)) := by
  rw [SubscriptionIndex.add]
  split
  · have hrem := (h.remove filter).register (Function.update_self filter none r) hb
    rwa [Function.update_idem] at hrem
  · next hn =>
    refine h.register ?_ hb
    rw [← h.get]
    simpa using hn

/-- Every operation keeps the index a representation of what is registered. -/
theorem Represents.apply {idx : SubscriptionIndex} {r : Registration} (h : Represents idx r)
    {op : IndexOp} (hop : op.Valid) : Represents (idx.apply op) (op.spec r) := by
  cases op with
  | add filter entry => exact h.add hop
  | remove filter => exact h.remove filter
  | clear =>
    refine ⟨⟨fun p => by simp [SubscriptionIndex.apply, SubscriptionIndex.clear], ?_⟩, ?_, ?_⟩
    · exact List.nodup_nil
    · intro f; rfl
    · intro f e hf; cases hf
  | addMany entries =>
    rw [SubscriptionIndex.apply, SubscriptionIndex.addMany, IndexOp.spec]
    induction entries generalizing idx r with
    | nil => exact h
    | cons item entries ih =>
      obtain ⟨hitem, hrest⟩ := List.forall_mem_cons.1 hop
      exact ih (h.add hitem) hrest

/-- Over any run the index represents what the operations registered. -/
theorem represents_run {ops : List IndexOp} (hops : ∀ op ∈ ops, op.Valid) :
    Represents (SubscriptionIndex.run ops) (registered ops) := by
  suffices hrun : ∀ (ops : List IndexOp) (idx : SubscriptionIndex) (r : Registration),
      Represents idx r → (∀ op ∈ ops, op.Valid) →
      Represents (ops.foldl SubscriptionIndex.apply idx) (ops.foldl IndexOp.spec r) by
    refine hrun ops {} _ ⟨⟨fun p => by simp, List.nodup_nil⟩, fun f => rfl, ?_⟩ hops
    intro f e hf
    cases hf
  intro ops
  induction ops with
  | nil => intro idx r h _; exact h
  | cons op ops ih =>
    intro idx r h hops
    obtain ⟨hop, hrest⟩ := List.forall_mem_cons.1 hops
    exact ih _ _ (h.apply hop) hrest

/-! ## `match` -/

/-- The levels of the filter of a built entry are well formed. -/
theorem Built.levelsOk {filter : String} {entry : SubscriptionEntry} (h : Built filter entry) :
    LevelsOk (itemPath (filter, entry)) := by
  obtain ⟨hv, prefixes, ha⟩ := h
  have hlevels := validateSubscribeTopic_levels hv
  unfold itemPath actualFilter
  dsimp only
  split
  · exact hlevels
  · rw [ha]
    exact hlevels.suffix (sharedFilterToActual_suffix filter prefixes)

section Match

variable {idx : SubscriptionIndex} {r : Registration} {topic : String}

/-- The walk lists the registered items whose levels match. -/
theorem Represents.mem_collect (h : Represents idx r) (ht : WildcardFree topic) (item : Item) :
    item ∈ idx.root.collect (splitLevels topic) ↔
      r item.1 = some item.2 ∧ LevelsMatch (itemPath item) (splitLevels topic) := by
  rw [Node.collect_eq ht.plainLevels, List.mem_flatMap, ← mem_visits_iff ht.plainLevels, ← h.get,
    ← Dict.mem_iff_get? h.nodup]
  constructor
  · rintro ⟨p, hp, hitem⟩
    rw [h.path, List.mem_filter] at hitem
    have hpath : itemPath item = p := by simpa using hitem.2
    exact ⟨hitem.1, hpath ▸ hp⟩
  · rintro ⟨hitem, hp⟩
    refine ⟨itemPath item, hp, ?_⟩
    rw [h.path, List.mem_filter]
    exact ⟨hitem, by simp⟩

/-- The walk lists no item twice: the visited paths are distinct, and an item has one. -/
theorem Represents.nodup_collect (h : Represents idx r) (ht : WildcardFree topic) :
    (idx.root.collect (splitLevels topic)).Nodup := by
  rw [Node.collect_eq ht.plainLevels, List.nodup_flatMap]
  have hentries : idx.entries.Nodup := List.Nodup.of_map Prod.fst h.nodup
  constructor
  · intro p _
    rw [h.path]
    exact hentries.filter _
  · refine (nodup_visits ht.plainLevels).imp ?_
    intro p q hpq item hp hq
    simp only [h.path, List.mem_filter] at hp hq
    apply hpq
    have hp' : itemPath item = p := by simpa using hp.2
    have hq' : itemPath item = q := by simpa using hq.2
    rw [← hp', hq']

theorem SubscriptionIndex.perm_matchTopic (idx : SubscriptionIndex) (topic : String) :
    (idx.matchTopic topic).Perm ((idx.root.collect (splitLevels topic)).filter fun item =>
      topicMatchesActual (actualFilter item) topic) :=
  List.perm_insertionSort _ _

theorem SubscriptionIndex.sorted_matchTopic (idx : SubscriptionIndex) (topic : String) :
    (idx.matchTopic topic).Pairwise fun a b => specificity a ≤ specificity b := by
  have htotal : Std.Total fun a b : Item => specificity a ≤ specificity b :=
    ⟨fun a b => le_total (specificity a) (specificity b)⟩
  have htrans : IsTrans Item fun a b => specificity a ≤ specificity b :=
    ⟨fun a b c hab hbc => le_trans hab hbc⟩
  exact List.pairwise_insertionSort _ _

end Match

/-- **The trie computes MQTT matching.** After any sequence of operations with filters that
    were validated and entries built by `_subscribe`, `match` lists every registered
    item whose effective filter matches the topic, each once, no other, and in order of
    non-decreasing specificity. -/
theorem matchTopic_run (ops : List IndexOp) (hops : ∀ op ∈ ops, op.Valid) (topic : String)
    (ht : WildcardFree topic) :
    ((SubscriptionIndex.run ops).matchTopic topic).Nodup ∧
    (∀ filter entry, (filter, entry) ∈ (SubscriptionIndex.run ops).matchTopic topic ↔
      registered ops filter = some entry ∧ MqttMatches (actualFilter (filter, entry)) topic) ∧
    ((SubscriptionIndex.run ops).matchTopic topic).Pairwise fun a b =>
      specificity a ≤ specificity b := by
  have h := represents_run hops
  refine ⟨?_, ?_, SubscriptionIndex.sorted_matchTopic _ topic⟩
  · rw [(SubscriptionIndex.perm_matchTopic _ topic).nodup_iff]
    exact (h.nodup_collect ht).filter _
  · intro filter entry
    rw [(SubscriptionIndex.perm_matchTopic _ topic).mem_iff, List.mem_filter, h.mem_collect ht]
    constructor
    · rintro ⟨⟨hr, -⟩, hm⟩
      exact ⟨hr, (topicMatchesActual_iff (h.built _ _ hr).levelsOk).1 hm⟩
    · rintro ⟨hr, hm⟩
      exact ⟨⟨hr, hm.1⟩, (topicMatchesActual_iff (h.built _ _ hr).levelsOk).2 hm⟩

/-- A plain and a shared subscription that match `a/b`, and one that was removed again. -/
def sampleOps : List IndexOp :=
  [.add "a/+" { queue := 0, actualFilter := "a/+" },
    .addMany [("$share/g/a/#", { queue := 1, actualFilter := "a/#" })],
    .add "a/b" { queue := 2, actualFilter := "a/b" }, .remove "a/b"]

theorem matchTopic_run_sampleOps :
    ((SubscriptionIndex.run sampleOps).matchTopic "a/b").map Prod.fst = ["a/+", "$share/g/a/#"] ∧
    ((SubscriptionIndex.run sampleOps).matchTopic "a/b").Nodup ∧ MqttMatches "a/#" "a/b" := by
  have hops : ∀ op ∈ sampleOps, op.Valid := by
    simp only [sampleOps, List.forall_mem_cons]
    refine ⟨⟨by decide +kernel, [], by decide +kernel⟩, ?_,
      ⟨by decide +kernel, [], by decide +kernel⟩, trivial, by simp⟩
    simp only [IndexOp.Valid, List.forall_mem_singleton]
    exact ⟨by decide +kernel, [], by decide +kernel⟩
  have h := matchTopic_run sampleOps hops "a/b" ⟨by decide, by decide⟩
  refine ⟨by decide +kernel, h.1, ?_⟩
  exact ((h.2.1 "$share/g/a/#" { queue := 1, actualFilter := "a/#" }).1 (by decide +kernel)).2

end Zmqtt
