/-
  The public `topic_matches` against `match` of the subscription index, on the same filter
  and prefixes.

  Both strip the filter and compare levels, `topic_matches` directly and the index by a
  walk of the trie; `mem_matchTopic_iff` says that the walk decides the same comparison, for
  every topic. They part where nothing remains of the filter, as of `$queue/`: the index
  takes the empty text for "not set" and stores the filter itself, while `topic_matches`
  compares with the empty filter.
-/
import Zmqtt.Topics.IndexInvariant
import Zmqtt.Topics.Specificity

namespace Zmqtt

/-! ## The walk and the comparison -/

namespace Node

/-- The walk lists entries of the trie only. -/
theorem Trim.entriesAt_of_collect {node : Node} (h : node.Trim) {ts : List String} {item : Item}
    (hitem : item ∈ node.collect ts) : ∃ path, item ∈ node.entriesAt path := by
  induction ts generalizing node with
  | nil =>
    rw [collect, hashEntries_eq, List.mem_append] at hitem
    obtain hitem | hitem := hitem
    · exact ⟨["#"], hitem⟩
    · exact ⟨[], hitem⟩
  | cons t ts ih =>
    have hchild : ∀ {key child}, (key, child) ∈ node.children ∨ (key, child) ∈ node.wildcardChildren →
        item ∈ child.collect ts → ∃ path, item ∈ node.entriesAt path := by
      intro key child hmem hin
      have hkey := h.child?_iff.2 hmem
      obtain ⟨-, -, -, below⟩ := h
      obtain ⟨path, hpath⟩ := ih (below key child hkey) hin
      refine ⟨key :: path, ?_⟩
      rw [entriesAt, hkey]
      exact hpath
    rw [collect, hashEntries_eq, List.mem_append, List.mem_append] at hitem
    obtain hitem | hitem | hitem := hitem
    · exact ⟨["#"], hitem⟩
    · cases hc : node.children.get? t with
      | none =>
        rw [hc] at hitem
        cases hitem
      | some child =>
        rw [hc] at hitem
        exact hchild (.inl (Dict.mem_of_get? hc)) hitem
    · cases hc : node.wildcardChildren.get? "+" with
      | none =>
        rw [hc] at hitem
        cases hitem
      | some child =>
        rw [hc] at hitem
        exact hchild (.inr (Dict.mem_of_get? hc)) hitem

/-- The walk lists the entries at a path of well-formed levels that match. -/
theorem collect_of_matchParts {node : Node} {path ts : List String} {item : Item}
    (hok : LevelsOk path) (hm : matchParts path ts = true) (hitem : item ∈ node.entriesAt path) :
    item ∈ node.collect ts := by
  induction path generalizing node ts with
  | nil =>
    rw [matchParts, List.isEmpty_iff] at hm
    subst hm
    rw [collect]
    exact List.mem_append_right _ hitem
  | cons f fs ih =>
    by_cases hf : f = "#"
    · obtain rfl := hok.hash hf
      subst hf
      rw [← hashEntries_eq] at hitem
      cases ts with
      | nil => exact List.mem_append_left _ hitem
      | cons t ts => exact List.mem_append_left _ hitem
    · cases ts with
      | nil =>
        rw [matchParts, if_neg hf] at hm
        cases hm
      | cons t ts =>
        rw [matchParts, if_neg hf] at hm
        split at hm
        · cases hm
        next hlevel =>
        rw [entriesAt] at hitem
        cases hc : node.child? f with
        | none =>
          rw [hc] at hitem
          cases hitem
        | some child =>
          rw [hc] at hitem
          have hin := ih hok.tail hm hitem
          rw [collect, List.mem_append, List.mem_append]
          by_cases hplus : f = "+"
          · subst hplus
            have hw : node.wildcardChildren.get? "+" = some child := hc
            rw [hw]
            exact .inr (.inr hin)
          · have hft : f = t := by
              by_contra hne
              exact hlevel ⟨hplus, hne⟩
            have hl : node.children.get? t = some child := by
              rw [← hft, ← hc, child?, mapping, if_neg (not_or.2 ⟨hplus, hf⟩)]
            rw [hl]
            exact .inr (.inl hin)

end Node

/-- `match` compares every registered item with the topic, for filters with well-formed
    levels. -/
theorem Views.mem_matchTopic_iff {idx : SubscriptionIndex} (h : Views idx) {item : Item}
    (hok : LevelsOk (itemPath item)) (topic : String) :
    item ∈ idx.matchTopic topic ↔
      item ∈ idx.entries ∧ topicMatchesActual (actualFilter item) topic = true := by
  rw [(SubscriptionIndex.perm_matchTopic idx topic).mem_iff, List.mem_filter]
  constructor
  · rintro ⟨hin, hm⟩
    obtain ⟨path, hpath⟩ := h.trim.entriesAt_of_collect hin
    rw [h.path] at hpath
    exact ⟨List.mem_of_mem_filter hpath, hm⟩
  · rintro ⟨hin, hm⟩
    refine ⟨Node.collect_of_matchParts hok ?_ (?_ : item ∈ idx.root.entriesAt (itemPath item)), hm⟩
    · rw [topicMatchesActual] at hm
      split at hm
      · cases hm
      · exact hm
    · rw [h.path]
      exact List.mem_filter.2 ⟨hin, decide_eq_true rfl⟩

/-! ## Where nothing remains of the filter -/

theorem topicMatchesActual_empty (topic : String) :
    topicMatchesActual "" topic = true ↔ topic = "" := by
  constructor
  · intro h
    rw [topicMatchesActual] at h
    split at h
    · cases h
    have hm : matchParts [""] (splitLevels topic) = true := h
    apply splitLevels_injective
    show _ = [""]
    cases hts : splitLevels topic with
    | nil => exact absurd hts (splitLevels_ne_nil topic)
    | cons t ts =>
      rw [hts, matchParts, if_neg (by decide)] at hm
      split at hm
      · cases hm
      · next hlevel =>
        rw [matchParts, List.isEmpty_iff] at hm
        have ht : "" = t := by
          by_contra hne
          exact hlevel ⟨by decide, hne⟩
        rw [hm, ← ht]
  · rintro rfl
    decide

/-- A filter of which nothing remains does not match the empty topic itself: it has a level
    before its last, empty one. -/
theorem not_matches_empty_of_actual {filter : String} {strippedPrefixes : List String}
    (hv : validateSubscribeTopic filter = .ok ())
    (ha : sharedFilterToActual filter strippedPrefixes = "") :
    topicMatchesActual filter "" = false := by
  have hok := validateSubscribeTopic_levels hv
  obtain heq | ⟨pre, hpre⟩ := sharedFilterToActual_eq filter strippedPrefixes
  · rw [← heq, ha] at hv
    exact absurd hv (by decide)
  rw [ha] at hpre
  have hlevels : splitLevels filter = splitLevels (String.ofList pre) ++ [""] := by
    rw [← @String.ofList_toList filter, hpre, splitLevels_append_slash]
    rfl
  rw [Bool.eq_false_iff]
  intro hm
  have hmatch := ((topicMatchesActual_iff hok).1 hm).1
  rw [hlevels] at hok hmatch
  obtain ⟨x, xs, hx⟩ := List.exists_cons_of_ne_nil (splitLevels_ne_nil (String.ofList pre))
  rw [hx, List.cons_append] at hok hmatch
  by_cases hhash : x = "#"
  · exact absurd (hok.hash hhash) (by simp)
  · have hrest := ((levelsMatch_cons _ _ hhash).1 hmatch).2
    obtain hnil | hone := (levelsMatch_nil _).1 hrest
    · exact absurd hnil (by simp)
    · have hlast : "" ∈ xs ++ [""] := List.mem_append_right xs List.mem_cons_self
      rw [hone, List.mem_singleton] at hlast
      exact absurd hlast (by decide)

/-! ## Agreement -/

/-- Something remains of the filter, or the topic is neither empty nor one that the filter as
    it was written matches by the rule of MQTT. -/
def SameAnswer (filter topic : String) (strippedPrefixes : List String) : Prop :=
  sharedFilterToActual filter strippedPrefixes ≠ "" ∨
    (topic ≠ "" ∧ ¬ MqttMatches filter topic)

/-- **The public matcher and the router.** For a filter that was validated and registered by
    `_subscribe` with the same prefixes, `topic_matches` says that it matches a topic exactly
    when `match` lists it there, if and only if something remains of the filter without its
    prefix, or the topic is not empty and does not match the filter as it was written. -/
theorem topicMatches_match_iff (ops : List IndexOp) (filter : String)
    (entry : SubscriptionEntry) (strippedPrefixes : List String) (topic : String)
    (hv : validateSubscribeTopic filter = .ok ())
    (hr : (latest ops).get? filter = some entry)
    (ha : entry.actualFilter = sharedFilterToActual filter strippedPrefixes) :
    (topicMatches filter topic strippedPrefixes = true ↔
      ∃ e, (filter, e) ∈ (SubscriptionIndex.run ops).matchTopic topic) ↔
    SameAnswer filter topic strippedPrefixes := by
  obtain ⟨h, hentries⟩ := views_run ops
  rw [← hentries] at hr
  have hbuilt : Built filter entry := ⟨hv, strippedPrefixes, ha⟩
  have hlisted : (∃ e, (filter, e) ∈ (SubscriptionIndex.run ops).matchTopic topic) ↔
      topicMatchesActual (actualFilter (filter, entry)) topic = true := by
    constructor
    · rintro ⟨e, he⟩
      have hin : (filter, e) ∈ (SubscriptionIndex.run ops).entries := by
        rw [(SubscriptionIndex.perm_matchTopic _ topic).mem_iff] at he
        obtain ⟨path, hpath⟩ := h.trim.entriesAt_of_collect (List.mem_of_mem_filter he)
        rw [h.path] at hpath
        exact List.mem_of_mem_filter hpath
      rw [Dict.mem_iff_get? h.nodup, hr] at hin
      cases hin
      exact ((h.mem_matchTopic_iff hbuilt.levelsOk topic).1 he).2
    · intro hm
      exact ⟨entry, (h.mem_matchTopic_iff hbuilt.levelsOk topic).2 ⟨Dict.mem_of_get? hr, hm⟩⟩
  rw [hlisted, topicMatches, SameAnswer, actualFilter,
    ← topicMatchesActual_iff (validateSubscribeTopic_levels hv)]
  dsimp only
  rw [ha]
  by_cases hempty : sharedFilterToActual filter strippedPrefixes = ""
  · rw [if_pos hempty, hempty, topicMatchesActual_empty]
    by_cases ht : topic = ""
    · subst ht
      simp [not_matches_empty_of_actual hv hempty]
    · simp [ht]
  · simp [hempty]

/-- `$share/g/jobs/#` registered and found at `jobs/1`. -/
theorem topicMatches_match_share :
    topicMatches "$share/g/jobs/#" "jobs/1" [] = true ∧
      ∃ e, ("$share/g/jobs/#", e) ∈
        (SubscriptionIndex.run [.add "$share/g/jobs/#" { queue := 0, actualFilter := "jobs/#" }]).matchTopic
          "jobs/1" := by
  have hmatch : topicMatches "$share/g/jobs/#" "jobs/1" [] = true := by decide +kernel
  have hiff := (topicMatches_match_iff
    [.add "$share/g/jobs/#" { queue := 0, actualFilter := "jobs/#" }] "$share/g/jobs/#"
    { queue := 0, actualFilter := "jobs/#" } [] "jobs/1" (by decide +kernel) (by decide +kernel)
    (by decide +kernel)).2 (.inl (by decide +kernel))
  exact ⟨hmatch, hiff.1 hmatch⟩

/-- `$queue/`, which is accepted, with the default prefixes: the public matcher says that it
    matches the empty topic only, the index finds it at `$queue/` only. -/
theorem empty_remainder_differs :
    ¬ ∀ (ops : List IndexOp) (filter : String) (entry : SubscriptionEntry)
      (strippedPrefixes : List String) (topic : String),
      validateSubscribeTopic filter = .ok () → (latest ops).get? filter = some entry →
      entry.actualFilter = sharedFilterToActual filter strippedPrefixes →
      (topicMatches filter topic strippedPrefixes = true ↔
        ∃ e, (filter, e) ∈ (SubscriptionIndex.run ops).matchTopic topic) := by
  intro hall
  have hiff := hall [.add "$queue/" { queue := 0 }] "$queue/" { queue := 0 }
    ["$queue", "$exclusive"] "$queue/" (by decide +kernel) (by decide +kernel) (by decide +kernel)
  have hlisted : ("$queue/", { queue := 0 }) ∈
      (SubscriptionIndex.run [.add "$queue/" { queue := 0 }]).matchTopic "$queue/" := by
    decide +kernel
  exact absurd (hiff.2 ⟨_, hlisted⟩) (by decide +kernel)

end Zmqtt
