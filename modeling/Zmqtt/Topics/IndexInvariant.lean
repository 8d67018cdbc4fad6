/-
  The three views that the subscription index keeps of one list: the trie, the entries by
  filter and the entries by identifier.

  `Node.Trim` is the shape of the trie: the two maps of a node keep wildcard and literal
  levels apart, and no child is dead. It makes the nodes of the tree those that a path of
  levels leads to (`Node.below_iff`), each with an entry at or below it
  (`Node.Trim.exists_entry`), and it is why removal undoes insertion exactly
  (`Node.removeEntry_insert`). `Views` says that the trie and the identifiers hold what
  `_entries` holds, and `latest` gives that list for a sequence of operations.
-/
import Zmqtt.Topics.SubscriptionIndex

namespace Zmqtt

namespace Node

/-! ## The maps of a node -/

/-- The levels that are kept in `wildcard_children`. -/
def IsWildcard (part : String) : Prop := part = "+" ∨ part = "#"

instance (part : String) : Decidable (IsWildcard part) :=
  inferInstanceAs (Decidable (_ ∨ _))

theorem mapping_eq (node : Node) (part : String) :
    node.mapping part = if IsWildcard part then node.wildcardChildren else node.children := rfl

theorem setMapping_eq (node : Node) (part : String) (m : Dict String Node) :
    node.setMapping part m =
      if IsWildcard part then mk node.children m node.entries
      else mk m node.wildcardChildren node.entries := rfl

theorem mapping_congr (node : Node) {part part' : String}
    (h : IsWildcard part ↔ IsWildcard part') : node.mapping part = node.mapping part' := by
  by_cases hw : IsWildcard part
  · rw [mapping_eq, mapping_eq, if_pos hw, if_pos (h.1 hw)]
  · rw [mapping_eq, mapping_eq, if_neg hw, if_neg (fun hw' => hw (h.2 hw'))]

theorem mapping_setMapping (node : Node) (part part' : String) (m : Dict String Node) :
    (node.setMapping part m).mapping part' =
      if IsWildcard part' ↔ IsWildcard part then m else node.mapping part' := by
  rw [setMapping_eq, mapping_eq, mapping_eq]
  by_cases hw : IsWildcard part
  · by_cases hw' : IsWildcard part'
    · simp [hw, hw', wildcardChildren]
    · simp [hw, hw', children]
  · by_cases hw' : IsWildcard part'
    · simp [hw, hw', wildcardChildren]
    · simp [hw, hw', children]

theorem mapping_setMapping_self (node : Node) (part : String) (m : Dict String Node) :
    (node.setMapping part m).mapping part = m := by
  rw [mapping_setMapping, if_pos Iff.rfl]

theorem setMapping_setMapping (node : Node) (part : String) (m m' : Dict String Node) :
    (node.setMapping part m).setMapping part m' = node.setMapping part m' := by
  unfold setMapping
  split
  · rfl
  · rfl

theorem setMapping_mapping (node : Node) (part : String) :
    node.setMapping part (node.mapping part) = node := by
  obtain ⟨c, w, es⟩ := node
  unfold setMapping mapping
  split
  · rfl
  · rfl

theorem isDead_eq_false_of_mapping {node : Node} {part : String} (h : node.mapping part ≠ []) :
    node.isDead = false := by
  by_contra hdead
  rw [Bool.not_eq_false, isDead, Bool.and_eq_true, Bool.and_eq_true, List.isEmpty_iff,
    List.isEmpty_iff] at hdead
  rw [mapping_eq] at h
  split at h
  · exact h hdead.1.2
  · exact h hdead.1.1

/-! ## The shape of the trie -/

/-- The maps of every node have distinct keys, wildcard and literal levels apart, and no
    child is dead. -/
inductive Trim : Node → Prop
  | intro {node : Node} (nodup : ∀ part, (node.mapping part).keys.Nodup)
      (own : ∀ part, ∀ key ∈ (node.mapping part).keys, IsWildcard key ↔ IsWildcard part)
      (alive : ∀ part child, node.child? part = some child → child.isDead = false)
      (below : ∀ part child, node.child? part = some child → Trim child) : Trim node

theorem trim_empty : Trim empty := by
  have hnil : ∀ part, empty.mapping part = [] := by
    intro part
    rw [mapping_eq]
    split
    · rfl
    · rfl
  have hno : ∀ part child, empty.child? part ≠ some child := by
    intro part child h
    rw [child?, hnil] at h
    cases h
  refine .intro (fun part => ?_) (fun part key hkey => ?_)
    (fun part child h => absurd h (hno part child)) (fun part child h => absurd h (hno part child))
  · rw [hnil]
    exact List.nodup_nil
  · rw [hnil] at hkey
    cases hkey

/-- A node whose maps are those of another has its shape. -/
theorem Trim.of_maps {node : Node} (h : node.Trim) (es : List Item) :
    (mk node.children node.wildcardChildren es).Trim := by
  obtain ⟨nodup, own, alive, below⟩ := h
  exact .intro nodup own alive below

theorem Trim.setChild {node child : Node} (h : node.Trim) (part : String) (hc : child.Trim)
    (hdead : child.isDead = false) :
    (node.setMapping part ((node.mapping part).set part child)).Trim := by
  obtain ⟨nodup, own, alive, below⟩ := h
  refine .intro (fun part' => ?_) (fun part' key hkey => ?_) (fun part' child' h' => ?_)
    (fun part' child' h' => ?_)
  · rw [mapping_setMapping]
    split
    · exact Dict.nodup_keys_set (nodup part) part child
    · exact nodup part'
  · rw [mapping_setMapping] at hkey
    split at hkey
    · next hsame =>
      obtain hkey | rfl := Dict.mem_keys_set.1 hkey
      · exact (own part key hkey).trans hsame.symm
      · exact hsame.symm
    · exact own part' key hkey
  · rw [child?_set] at h'
    split at h'
    · cases h'
      exact hdead
    · exact alive part' child' h'
  · rw [child?_set] at h'
    split at h'
    · cases h'
      exact hc
    · exact below part' child' h'

theorem Trim.popChild {node : Node} (h : node.Trim) (part : String) :
    (node.setMapping part ((node.mapping part).pop part)).Trim := by
  obtain ⟨nodup, own, alive, below⟩ := h
  refine .intro (fun part' => ?_) (fun part' key hkey => ?_) (fun part' child' h' => ?_)
    (fun part' child' h' => ?_)
  · rw [mapping_setMapping]
    split
    · exact Dict.nodup_keys_pop (nodup part) part
    · exact nodup part'
  · rw [mapping_setMapping] at hkey
    split at hkey
    · next hsame =>
      obtain ⟨item, hitem, rfl⟩ := List.mem_map.1 hkey
      exact (own part _ (List.mem_map_of_mem (List.mem_of_mem_filter hitem))).trans hsame.symm
    · exact own part' key hkey
  · rw [child?_pop] at h'
    split at h'
    · cases h'
    · exact alive part' child' h'
  · rw [child?_pop] at h'
    split at h'
    · cases h'
    · exact below part' child' h'

theorem isDead_insert (path : List String) (item : Item) (node : Node) :
    (insert path item node).isDead = false := by
  cases path with
  | nil => simp [insert, isDead, entries]
  | cons part parts =>
    apply @isDead_eq_false_of_mapping _ part
    rw [insert, mapping_setMapping_self]
    intro hnil
    have hkey := (@Dict.mem_keys_set _ _ _ (node.mapping part) part part
      (insert parts item (((node.mapping part).get? part).getD empty))).2 (.inr rfl)
    rw [hnil] at hkey
    cases hkey

theorem Trim.insert {node : Node} (h : node.Trim) (path : List String) (item : Item) :
    (node.insert path item).Trim := by
  induction path generalizing node with
  | nil => exact h.of_maps _
  | cons part parts ih =>
    refine h.setChild part (ih ?_) (isDead_insert _ _ _)
    cases hc : (node.mapping part).get? part with
    | none => exact trim_empty
    | some child =>
      obtain ⟨-, -, -, below⟩ := h
      exact below part child hc

theorem Trim.removeEntry {node : Node} (h : node.Trim) (path : List String) (item : Item) :
    (node.removeEntry path item).Trim := by
  induction path generalizing node with
  | nil => exact h.of_maps _
  | cons part parts ih =>
    rw [Node.removeEntry]
    cases hc : (node.mapping part).get? part with
    | none => exact h
    | some child =>
      have hchild : (child.removeEntry parts item).Trim := by
        obtain ⟨-, -, -, below⟩ := h
        exact ih (below part child hc)
      dsimp only
      split
      · exact h.popChild part
      · next hdead => exact h.setChild part hchild (Bool.eq_false_iff.2 hdead)

/-! ## The nodes of the tree -/

/-- `node` lies in the tree below `root`, under the keys `path`. -/
inductive Below (root : Node) : List String → Node → Prop
  | root : Below root [] root
  | child {path : List String} {node child : Node} {part : String} (h : Below root path node)
      (hc : (part, child) ∈ node.children ∨ (part, child) ∈ node.wildcardChildren) :
      Below root (path ++ [part]) child

/-- The node that a path of levels leads to. -/
def nodeAt : List String → Node → Option Node
  | [], node => some node
  | part :: parts, node => (node.child? part).bind (nodeAt parts)

theorem nodeAt_append (path path' : List String) (node : Node) :
    nodeAt (path ++ path') node = (nodeAt path node).bind (nodeAt path') := by
  induction path generalizing node with
  | nil => rfl
  | cons part parts ih =>
    rw [List.cons_append, nodeAt, nodeAt, Option.bind_assoc]
    exact congrArg _ (funext fun child => ih child)

theorem entriesAt_eq (path : List String) (node : Node) :
    entriesAt path node = ((nodeAt path node).map entries).getD [] := by
  induction path generalizing node with
  | nil => rfl
  | cons part parts ih =>
    rw [entriesAt, nodeAt]
    cases node.child? part with
    | none => rfl
    | some child => exact ih child

theorem entriesAt_append {root node : Node} {path : List String}
    (h : root.nodeAt path = some node) (rest : List String) :
    root.entriesAt (path ++ rest) = node.entriesAt rest := by
  rw [entriesAt_eq, entriesAt_eq, nodeAt_append, h]
  rfl

theorem Trim.child?_of_mem {node child : Node} (h : node.Trim) {part key : String}
    (hc : (key, child) ∈ node.mapping part) : node.child? key = some child := by
  obtain ⟨nodup, own, -, -⟩ := h
  have hown := own part key (Dict.mem_keys_of_mem hc)
  rw [child?, ← Dict.mem_iff_get? (nodup key), node.mapping_congr hown]
  exact hc

theorem Trim.child?_iff {node child : Node} (h : node.Trim) {key : String} :
    node.child? key = some child ↔
      (key, child) ∈ node.children ∨ (key, child) ∈ node.wildcardChildren := by
  constructor
  · intro hc
    have hmem : (key, child) ∈ node.mapping key := Dict.mem_of_get? hc
    rw [mapping_eq] at hmem
    split at hmem
    · exact .inr hmem
    · exact .inl hmem
  · rintro (hc | hc)
    · exact @Trim.child?_of_mem _ _ h "" _ hc
    · exact @Trim.child?_of_mem _ _ h "+" _ hc

/-- A node that a path leads to has the shape, and is not dead unless it is the root. -/
theorem Trim.nodeAt {root node : Node} (h : root.Trim) {path : List String}
    (hnode : root.nodeAt path = some node) :
    node.Trim ∧ (path ≠ [] → node.isDead = false) := by
  induction path generalizing root with
  | nil =>
    cases hnode
    exact ⟨h, fun hne => absurd rfl hne⟩
  | cons part parts ih =>
    obtain ⟨-, -, alive, below⟩ := h
    obtain ⟨child, hc, hrest⟩ := Option.bind_eq_some_iff.1 hnode
    obtain ⟨htrim, hdead⟩ := ih (below part child hc) hrest
    refine ⟨htrim, fun _ => ?_⟩
    cases parts with
    | nil =>
      cases hrest
      exact alive part _ hc
    | cons part' parts' => exact hdead (by simp)

/-- The nodes of a tree are those that its paths lead to. -/
theorem below_iff {root node : Node} (h : root.Trim) {path : List String} :
    Below root path node ↔ root.nodeAt path = some node := by
  constructor
  · intro hb
    induction hb with
    | root => rfl
    | child _ hc ih =>
      rw [nodeAt_append, ih]
      have hchild := (h.nodeAt ih).1.child?_iff.2 hc
      show (child? _ _).bind _ = _
      rw [hchild]
      rfl
  · intro hnode
    induction path using List.reverseRecOn generalizing node with
    | nil =>
      cases hnode
      exact .root
    | append_singleton path part ih =>
      rw [nodeAt_append] at hnode
      obtain ⟨parent, hparent, hlast⟩ := Option.bind_eq_some_iff.1 hnode
      obtain ⟨child, hc, hchild⟩ := Option.bind_eq_some_iff.1 hlast
      cases hchild
      exact .child (ih hparent) ((h.nodeAt hparent).1.child?_iff.1 hc)

/-- A node that is not dead has an entry at or below it. -/
theorem Trim.exists_entry {node : Node} (h : node.Trim) (hdead : node.isDead = false) :
    ∃ path item, item ∈ node.entriesAt path := by
  induction h with
  | @intro node nodup own alive below ih =>
    have htrim : node.Trim := .intro nodup own alive below
    have hchild : ∀ key child, node.child? key = some child →
        ∃ path item, item ∈ node.entriesAt path := by
      intro key child hc
      obtain ⟨path, item, hitem⟩ := ih key child hc (alive key child hc)
      refine ⟨key :: path, item, ?_⟩
      rw [entriesAt, hc]
      exact hitem
    cases hes : node.entries with
    | cons item items =>
      refine ⟨[], item, ?_⟩
      rw [entriesAt, hes]
      exact List.mem_cons_self
    | nil =>
      cases hcs : node.children with
      | cons first rest =>
        have hmem : (first.1, first.2) ∈ node.children := by
          rw [hcs]
          exact List.mem_cons_self
        exact hchild first.1 first.2 (htrim.child?_iff.2 (.inl hmem))
      | nil =>
        cases hws : node.wildcardChildren with
        | cons first rest =>
          have hmem : (first.1, first.2) ∈ node.wildcardChildren := by
            rw [hws]
            exact List.mem_cons_self
          exact hchild first.1 first.2 (htrim.child?_iff.2 (.inr hmem))
        | nil =>
          rw [isDead, hes, hcs, hws] at hdead
          cases hdead

/-- Removing an item right after it was inserted gives the node back. -/
theorem removeEntry_insert {node : Node} (h : node.Trim) {path : List String} {item : Item}
    (hnot : item ∉ node.entriesAt path) :
    removeEntry path item (insert path item node) = node := by
  induction path generalizing node with
  | nil =>
    obtain ⟨c, w, es⟩ := node
    have hkeep : es.filter (fun other => decide (other ≠ item)) = es :=
      List.filter_eq_self.2 fun other hother => decide_eq_true fun he => hnot (he ▸ hother)
    show mk c w ((es ++ [item]).filter _) = _
    rw [List.filter_append, hkeep]
    simp
  | cons part parts ih =>
    rw [insert, removeEntry, mapping_setMapping_self, Dict.get?_set, if_pos rfl]
    dsimp only
    rw [setMapping_setMapping, setMapping_setMapping]
    cases hc : (node.mapping part).get? part with
    | none =>
      have hback : removeEntry parts item (insert parts item empty) = empty :=
        ih trim_empty (by rw [entriesAt_empty]; exact List.not_mem_nil)
      have hdead : empty.isDead = true := rfl
      rw [Option.getD_none, hback, if_pos hdead,
        Dict.pop_set_of_not_mem _ ((Dict.get?_eq_none_iff _ _).1 hc), setMapping_mapping]
    | some child =>
      have hchild : node.child? part = some child := hc
      rw [entriesAt, hchild] at hnot
      obtain ⟨-, -, alive, below⟩ := h
      have hback := ih (below part child hchild) hnot
      have hdead := alive part child hchild
      rw [Option.getD_some, hback, if_neg (by rw [hdead]; decide), Dict.set_set,
        Dict.set_of_get? hc, setMapping_mapping]

end Node

/-! ## The entries by identifier -/

/-- The entries with an identifier, in the order of `entries`. -/
def bucketOf (entries : Dict String SubscriptionEntry) (identifier : Int) :
    Dict String SubscriptionEntry :=
  entries.filter fun item => item.2.subscriptionIdentifier = some identifier

/-- `_by_identifier` holds a bucket for each identifier in use, with its entries, and no
    other. -/
def Buckets (byIdentifier : Dict Int (Dict String SubscriptionEntry))
    (entries : Dict String SubscriptionEntry) : Prop :=
  ∀ i, byIdentifier.get? i = if bucketOf entries i = [] then none else some (bucketOf entries i)

theorem mem_keys_bucketOf {entries : Dict String SubscriptionEntry} {i : Int} {filter : String}
    (h : filter ∈ (bucketOf entries i).keys) : filter ∈ entries.keys := by
  obtain ⟨item, hitem, rfl⟩ := List.mem_map.1 h
  exact List.mem_map_of_mem (List.mem_of_mem_filter hitem)

theorem bucketOf_append (entries : Dict String SubscriptionEntry) (i : Int) (filter : String)
    (entry : SubscriptionEntry) :
    bucketOf (entries ++ [(filter, entry)]) i =
      if entry.subscriptionIdentifier = some i then bucketOf entries i ++ [(filter, entry)]
      else bucketOf entries i := by
  rw [bucketOf, List.filter_append]
  by_cases h : entry.subscriptionIdentifier = some i
  · simp [h, bucketOf]
  · simp [h, bucketOf]

theorem bucketOf_pop (entries : Dict String SubscriptionEntry) (i : Int) (filter : String) :
    bucketOf (entries.pop filter) i = (bucketOf entries i).pop filter := by
  unfold bucketOf Dict.pop
  exact List.filter_comm _ _ _

section Buckets

variable {byIdentifier : Dict Int (Dict String SubscriptionEntry)}
  {entries : Dict String SubscriptionEntry}

theorem Buckets.getD (h : Buckets byIdentifier entries) (i : Int) :
    (byIdentifier.get? i).getD [] = bucketOf entries i := by
  rw [h i]
  split
  · next hnil => exact hnil.symm
  · rfl

/-- The registration of a filter that is not in the index. -/
theorem Buckets.append (h : Buckets byIdentifier entries) {filter : String}
    (entry : SubscriptionEntry) (hnot : filter ∉ entries.keys) :
    Buckets (match entry.subscriptionIdentifier with
      | none => byIdentifier
      | some i => byIdentifier.set i (((byIdentifier.get? i).getD []).set filter entry))
      (entries ++ [(filter, entry)]) := by
  intro i
  rw [bucketOf_append]
  cases hid : entry.subscriptionIdentifier with
  | none => exact h i
  | some j =>
    dsimp only
    rw [Dict.get?_set, h.getD,
      Dict.set_of_not_mem entry fun hkey => hnot (mem_keys_bucketOf hkey)]
    by_cases hij : j = i
    · subst hij
      rw [if_pos rfl, if_pos rfl, if_neg (by simp)]
    · rw [if_neg hij, if_neg fun he => hij (Option.some.inj he)]
      exact h i

/-- The removal of a filter that is in the index. -/
theorem Buckets.pop (h : Buckets byIdentifier entries) {filter : String}
    {entry : SubscriptionEntry} (hd : entries.keys.Nodup)
    (hget : entries.get? filter = some entry) :
    Buckets (SubscriptionIndex.dropIdentifier byIdentifier filter entry.subscriptionIdentifier)
      (entries.pop filter) := by
  intro i
  rw [bucketOf_pop]
  -- a bucket of another identifier does not hold the filter
  have hother : entry.subscriptionIdentifier ≠ some i →
      (bucketOf entries i).pop filter = bucketOf entries i := by
    intro hne
    refine Dict.pop_of_not_mem fun hkey => hne ?_
    obtain ⟨item, hitem, rfl⟩ := List.mem_map.1 hkey
    obtain ⟨hmem, hid⟩ := List.mem_filter.1 hitem
    rw [(Dict.mem_iff_get? hd item.1 item.2).1 hmem] at hget
    rw [← Option.some.inj hget]
    exact of_decide_eq_true hid
  unfold SubscriptionIndex.dropIdentifier
  cases hid : entry.subscriptionIdentifier with
  | none =>
    rw [hother (by rw [hid]; simp)]
    exact h i
  | some j =>
    dsimp only
    by_cases hij : j = i
    · subst hij
      have hj := h j
      have hne : bucketOf entries j ≠ [] := by
        have hmem : (filter, entry) ∈ bucketOf entries j :=
          List.mem_filter.2 ⟨Dict.mem_of_get? hget, decide_eq_true hid⟩
        exact List.ne_nil_of_mem hmem
      rw [if_neg hne] at hj
      rw [hj]
      dsimp only
      by_cases hempty : (bucketOf entries j).pop filter = []
      · rw [if_pos (List.isEmpty_iff.2 hempty), Dict.get?_pop, if_pos rfl, if_pos hempty]
      · rw [if_neg (fun he => hempty (List.isEmpty_iff.1 he)), Dict.get?_set, if_pos rfl,
          if_neg hempty]
    · rw [hother (by rw [hid]; exact fun he => hij (Option.some.inj he))]
      cases hj : byIdentifier.get? j with
      | none => exact h i
      | some bucket =>
        dsimp only
        split
        · rw [Dict.get?_pop, if_neg hij]
          exact h i
        · rw [Dict.get?_set, if_neg hij]
          exact h i

/-- Removing a filter right after it was registered gives the buckets back. -/
theorem Buckets.dropIdentifier_append (h : Buckets byIdentifier entries) {filter : String}
    (entry : SubscriptionEntry) (hnot : filter ∉ entries.keys) :
    SubscriptionIndex.dropIdentifier (match entry.subscriptionIdentifier with
      | none => byIdentifier
      | some i => byIdentifier.set i (((byIdentifier.get? i).getD []).set filter entry))
      filter entry.subscriptionIdentifier = byIdentifier := by
  cases entry.subscriptionIdentifier with
  | none => rfl
  | some i =>
    have hkey : filter ∉ (bucketOf entries i).keys := fun hkey => hnot (mem_keys_bucketOf hkey)
    dsimp only [SubscriptionIndex.dropIdentifier]
    rw [Dict.get?_set, if_pos rfl, h.getD]
    dsimp only
    rw [Dict.pop_set_of_not_mem entry hkey]
    have hi := h i
    by_cases hnil : bucketOf entries i = []
    · rw [if_pos hnil] at hi
      rw [if_pos (List.isEmpty_iff.2 hnil),
        Dict.pop_set_of_not_mem _ ((Dict.get?_eq_none_iff _ _).1 hi)]
    · rw [if_neg hnil] at hi
      rw [if_neg (fun he => hnil (List.isEmpty_iff.1 he)), Dict.set_set, Dict.set_of_get? hi]

end Buckets

/-! ## The views of an index -/

/-- The trie and the buckets hold what `_entries` holds, and the trie has its shape. -/
structure Views (idx : SubscriptionIndex) : Prop extends TrieOk idx where
  trim : idx.root.Trim
  buckets : Buckets idx.byIdentifier idx.entries

theorem views_empty : Views {} :=
  { path := fun p => by simp
    nodup := List.nodup_nil
    trim := Node.trim_empty
    buckets := fun _ => rfl }

theorem Views.remove {idx : SubscriptionIndex} (h : Views idx) (filter : String) :
    Views (idx.remove filter) := by
  refine { toTrieOk := h.toTrieOk.remove filter, trim := ?_, buckets := ?_ }
  · rw [SubscriptionIndex.remove]
    split
    · exact h.trim
    · exact h.trim.removeEntry _ _
  · rw [SubscriptionIndex.remove]
    split
    · exact h.buckets
    · next hget => exact h.buckets.pop h.nodup hget

theorem Views.register {idx : SubscriptionIndex} (h : Views idx) {filter : String}
    (entry : SubscriptionEntry) (hnot : filter ∉ idx.entries.keys) :
    Views (idx.register filter entry) := by
  refine { toTrieOk := h.toTrieOk.register entry hnot, trim := h.trim.insert _ _, buckets := ?_ }
  show Buckets _ (idx.entries.set filter entry)
  rw [Dict.set_of_not_mem entry hnot]
  exact h.buckets.append entry hnot

theorem entries_remove (idx : SubscriptionIndex) (filter : String) :
    (idx.remove filter).entries = idx.entries.pop filter := by
  rw [SubscriptionIndex.remove]
  split
  · next hnone => exact (Dict.pop_of_not_mem ((Dict.get?_eq_none_iff _ _).1 hnone)).symm
  · rfl

/-- `add` moves the filter to the end. -/
theorem Views.add {idx : SubscriptionIndex} (h : Views idx) (filter : String)
    (entry : SubscriptionEntry) :
    Views (idx.add filter entry) ∧
      (idx.add filter entry).entries = idx.entries.pop filter ++ [(filter, entry)] := by
  rw [SubscriptionIndex.add]
  split
  · have hnot : filter ∉ (idx.remove filter).entries.keys := by
      rw [entries_remove]
      exact Dict.not_mem_keys_pop _ _
    refine ⟨(h.remove filter).register entry hnot, ?_⟩
    show (idx.remove filter).entries.set filter entry = _
    rw [Dict.set_of_not_mem entry hnot, entries_remove]
  · next hnone =>
    rw [Option.not_isSome_iff_eq_none, Dict.get?_eq_none_iff] at hnone
    refine ⟨h.register entry hnone, ?_⟩
    show idx.entries.set filter entry = _
    rw [Dict.set_of_not_mem entry hnone, Dict.pop_of_not_mem hnone]

/-- The effect of an operation on the list of what is registered, in the order of the latest
    registrations. -/
def IndexOp.order (items : Dict String SubscriptionEntry) :
    IndexOp → Dict String SubscriptionEntry
  | .add filter entry => items.pop filter ++ [(filter, entry)]
  | .addMany entries => entries.foldl (fun items item => items.pop item.1 ++ [item]) items
  | .remove filter => items.pop filter
  | .clear => []

/-- What is registered after a sequence of operations, by latest registration. -/
def latest (ops : List IndexOp) : Dict String SubscriptionEntry := ops.foldl IndexOp.order []

theorem Views.apply {idx : SubscriptionIndex} (h : Views idx) (op : IndexOp) :
    Views (idx.apply op) ∧ (idx.apply op).entries = op.order idx.entries := by
  cases op with
  | add filter entry => exact h.add filter entry
  | remove filter => exact ⟨h.remove filter, entries_remove idx filter⟩
  | clear => exact ⟨views_empty, rfl⟩
  | addMany entries =>
    rw [SubscriptionIndex.apply, SubscriptionIndex.addMany, IndexOp.order]
    induction entries generalizing idx with
    | nil => exact ⟨h, rfl⟩
    | cons item entries ih =>
      obtain ⟨hviews, hentries⟩ := h.add item.1 item.2
      obtain ⟨hviews', hentries'⟩ := ih hviews
      rw [hentries] at hentries'
      exact ⟨hviews', hentries'⟩

theorem views_run (ops : List IndexOp) :
    Views (SubscriptionIndex.run ops) ∧ (SubscriptionIndex.run ops).entries = latest ops := by
  suffices hrun : ∀ (ops : List IndexOp) (idx : SubscriptionIndex), Views idx →
      Views (ops.foldl SubscriptionIndex.apply idx) ∧
        (ops.foldl SubscriptionIndex.apply idx).entries = ops.foldl IndexOp.order idx.entries from
    hrun ops {} views_empty
  intro ops
  induction ops with
  | nil => exact fun idx h => ⟨h, rfl⟩
  | cons op ops ih =>
    intro idx h
    obtain ⟨hviews, hentries⟩ := h.apply op
    obtain ⟨hviews', hentries'⟩ := ih _ hviews
    rw [hentries] at hentries'
    exact ⟨hviews', hentries'⟩

/-- Removing a filter right after it was added, when it was absent, gives the index back. -/
theorem Views.remove_add {idx : SubscriptionIndex} (h : Views idx) {filter : String}
    (entry : SubscriptionEntry) (hnone : idx.entries.get? filter = none) :
    (idx.add filter entry).remove filter = idx := by
  have hnot := (Dict.get?_eq_none_iff _ _).1 hnone
  have hroot : (filter, entry) ∉ idx.root.entriesAt (itemPath (filter, entry)) := by
    rw [h.path]
    exact fun hmem => hnot (Dict.mem_keys_of_mem (List.mem_of_mem_filter hmem))
  have hget : (idx.register filter entry).entries.get? filter = some entry := by
    show (idx.entries.set filter entry).get? filter = _
    rw [Dict.get?_set, if_pos rfl]
  rw [SubscriptionIndex.add, hnone, if_neg (by simp), SubscriptionIndex.remove, hget]
  show SubscriptionIndex.mk _ _ _ _ = _
  congr 1
  · exact Node.removeEntry_insert h.trim hroot
  · exact Dict.pop_set_of_not_mem entry hnot
  · exact h.buckets.dropIdentifier_append entry hnot

/-- Each node of the trie holds the registered items with its path. -/
theorem Views.entries_below {idx : SubscriptionIndex} (h : Views idx) {path : List String}
    {node : Node} (hnode : Node.Below idx.root path node) :
    node.entries = idx.entries.filter fun item => itemPath item = path := by
  have hat := (Node.below_iff h.trim).1 hnode
  have hroot := Node.entriesAt_append hat []
  rw [List.append_nil, h.path] at hroot
  exact hroot.symm

/-- Each registered item stands at the node of its filter. -/
theorem Views.exists_below {idx : SubscriptionIndex} (h : Views idx) {item : Item}
    (hitem : item ∈ idx.entries) : ∃ node, Node.Below idx.root (itemPath item) node := by
  have hmem : item ∈ idx.root.entriesAt (itemPath item) := by
    rw [h.path]
    exact List.mem_filter.2 ⟨hitem, decide_eq_true rfl⟩
  rw [Node.entriesAt_eq] at hmem
  cases hnode : idx.root.nodeAt (itemPath item) with
  | none =>
    rw [hnode] at hmem
    cases hmem
  | some node => exact ⟨node, (Node.below_iff h.trim).2 hnode⟩

/-- A node other than the root has a registered item at or below it. -/
theorem Views.alive_below {idx : SubscriptionIndex} (h : Views idx) {path : List String}
    {node : Node} (hnode : Node.Below idx.root path node) (hne : path ≠ []) :
    ∃ item ∈ idx.entries, path <+: itemPath item := by
  have hat := (Node.below_iff h.trim).1 hnode
  obtain ⟨htrim, hdead⟩ := h.trim.nodeAt hat
  obtain ⟨rest, item, hitem⟩ := htrim.exists_entry (hdead hne)
  rw [← Node.entriesAt_append hat, h.path] at hitem
  obtain ⟨hmem, hpath⟩ := List.mem_filter.1 hitem
  refine ⟨item, hmem, ?_⟩
  rw [of_decide_eq_true hpath]
  exact List.prefix_append path rest

/-- **The views agree.** After any sequence of operations `_entries` lists what is
    registered by latest registration, each filter once; the trie has one node for the path
    of each item, each node holds the items with its path and no other, and each node but
    the root has an item at or below it; an identifier lists its entries in the same order,
    and has no bucket without entries; and a filter that is added when it was absent and
    then removed leaves the index as it was. -/
theorem index_views (ops : List IndexOp) :
    (SubscriptionIndex.run ops).entries = latest ops ∧ (latest ops).keys.Nodup ∧
    (∀ path node, Node.Below (SubscriptionIndex.run ops).root path node →
      node.entries = ((latest ops).filter fun item => itemPath item = path) ∧
      (∀ node', Node.Below (SubscriptionIndex.run ops).root path node' → node' = node) ∧
      (path ≠ [] → ∃ item ∈ latest ops, path <+: itemPath item)) ∧
    (∀ item ∈ latest ops, ∃ node, Node.Below (SubscriptionIndex.run ops).root (itemPath item) node) ∧
    (∀ i, (SubscriptionIndex.run ops).identified i = ((latest ops).filter fun item =>
        item.2.subscriptionIdentifier = some i) ∧
      (SubscriptionIndex.run ops).byIdentifier.get? i ≠ some []) ∧
    ∀ filter entry, filter ∉ (latest ops).keys →
      ((SubscriptionIndex.run ops).add filter entry).remove filter = SubscriptionIndex.run ops := by
  obtain ⟨h, hentries⟩ := views_run ops
  refine ⟨hentries, hentries ▸ h.nodup, fun path node hnode => ⟨?_, fun node' hnode' => ?_, ?_⟩,
    ?_, fun i => ⟨?_, ?_⟩, fun filter entry hnot => ?_⟩
  · rw [← hentries]
    exact h.entries_below hnode
  · rw [Node.below_iff h.trim] at hnode hnode'
    rw [hnode'] at hnode
    exact Option.some.inj hnode
  · rw [← hentries]
    exact h.alive_below hnode
  · rw [← hentries]
    exact fun item hitem => h.exists_below hitem
  · rw [← hentries]
    exact h.buckets.getD i
  · rw [h.buckets i]
    split
    · simp
    · next hne => exact fun he => hne (Option.some.inj he)
  · rw [← hentries, ← Dict.get?_eq_none_iff] at hnot
    exact h.remove_add entry hnot

end Zmqtt
