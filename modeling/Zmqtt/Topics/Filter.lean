/-
  Topic filters: validation (`_internal/types/topic.py`) and matching
  (`_internal/topic_matching.py`), with the declarative rule of MQTT 4.7.

  A `str` is read as the list of its characters. `validateSubscribeTopic_levels` says
  what the levels of an accepted filter look like, `levels_suffix` that removing a
  shared or decorator prefix keeps the last levels, and `topicMatchesActual_iff` that
  the matcher computes the declarative rule `MqttMatches`.
-/
import Mathlib.Tactic

namespace Zmqtt

/-! ## Strings -/

/-- `s.split("/")`. -/
def splitLevels (s : String) : List String := (s.toList.splitOn '/').map String.ofList

/-- `s.startswith(p)`. -/
def startsWith (s p : String) : Bool := p.toList.isPrefixOf s.toList

/-- The text after the first `/`, when there is one. -/
def afterSlash? (cs : List Char) : Option String :=
  match cs.dropWhile (· ≠ '/') with
  | [] => none
  | _ :: rest => some (String.ofList rest)

/-! ## Validation -/

/-- `MQTTInvalidTopicError`: the message is `text`, followed by `repr` of the topic when
    the source puts it there. -/
structure InvalidTopicError where
  text : String
  topic : Option String := none
  deriving Repr, DecidableEq

/-- `validate_publish`. -/
def validatePublish (topic : String) : Except InvalidTopicError Unit :=
  if topic.toList = [] then .error { text := "Topic must not be empty" }
  else if '#' ∈ topic.toList ∨ '+' ∈ topic.toList then
    .error { text := "Wildcards not allowed in publish topic: ", topic := some topic }
  else if '$' ∈ topic.toList.drop 1 then
    .error { text := "'$' is only valid as the first character of a topic: ", topic := some topic }
  else .ok ()

/-- `validate_response_topic`. -/
def validateResponseTopic (topic : String) : Except InvalidTopicError Unit := validatePublish topic

/-- The `'#'` checks of `validate_subscribe_topic`. -/
def validateHash (topic : String) : Except InvalidTopicError Unit :=
  if '#' ∈ topic.toList then
    let idx := topic.toList.idxOf '#'
    if idx ≠ topic.toList.length - 1 then
      .error { text := "'#' must be the last character in a topic filter: ", topic := some topic }
    else if 0 < idx ∧ topic.toList[idx - 1]? ≠ some '/' then
      .error { text := "'#' must be preceded by '/' in a topic filter: ", topic := some topic }
    else .ok ()
  else .ok ()

/-- The `for level in topic.split("/")` loop of `validate_subscribe_topic`. -/
def validatePlus (topic : String) : Except InvalidTopicError Unit :=
  if ∃ level ∈ splitLevels topic, '+' ∈ level.toList ∧ level ≠ "+" then
    .error { text := "'+' must occupy an entire topic level in filter: ", topic := some topic }
  else .ok ()

/-- `validate_subscribe_topic`. -/
def validateSubscribeTopic (topic : String) : Except InvalidTopicError Unit := do
  if topic.toList = [] then .error { text := "Topic filter must not be empty" }
  else if '$' ∈ topic.toList.drop 1 then
    .error { text := "'$' is only valid as the first character of a topic filter: ",
             topic := some topic }
  else
    validateHash topic
    validatePlus topic

/-! ## Matching -/

/-- The `$share/<group>/` case of `_shared_filter_to_actual`. -/
def shareActual? (filter : String) : Option String :=
  if startsWith filter "$share/" then afterSlash? (filter.toList.drop 7) else none

/-- `_shared_filter_to_actual`. -/
def sharedFilterToActual (filter : String) (strippedPrefixes : List String) : String :=
  match shareActual? filter with
  | some actual => actual
  | none =>
      if strippedPrefixes.any fun p => startsWith filter (p ++ "/") then
        (afterSlash? filter.toList).getD filter
      else filter

/-- `_match_parts`. -/
def matchParts : List String → List String → Bool
  | [], tparts => tparts.isEmpty
  | f :: fparts, tparts =>
      if f = "#" then true
      else
        match tparts with
        | [] => false
        | t :: tparts => if f ≠ "+" ∧ f ≠ t then false else matchParts fparts tparts

/-- `_topic_matches`. -/
def topicMatchesActual (actualFilter topic : String) : Bool :=
  if startsWith topic "$" ≠ startsWith actualFilter "$" then false
  else matchParts (splitLevels actualFilter) (splitLevels topic)

/-- `topic_matches`. -/
def topicMatches (topicFilter topic : String) (strippedPrefixes : List String) : Bool :=
  topicMatchesActual (sharedFilterToActual topicFilter strippedPrefixes) topic

/-- `_segment_rank`. -/
def segmentRank (seg : String) : Nat := if seg = "#" then 2 else if seg = "+" then 1 else 0

/-- `_filter_specificity`; tuples of integers compare lexicographically, as lists do. -/
def filterSpecificity (actualFilter : String) : List Nat :=
  (splitLevels actualFilter).map segmentRank

/-! ## The rule of MQTT 4.7 -/

/-- One level of a filter, not `#`, matches one level of a topic. -/
def LevelMatches (f t : String) : Prop := f = "+" ∨ f = t

/-- Level by level, or with a final `#` that takes any remaining levels (also none: the
    parent level). -/
def LevelsMatch (fs ts : List String) : Prop :=
  List.Forall₂ LevelMatches fs ts ∨
    ∃ init hd rest, fs = init ++ ["#"] ∧ ts = hd ++ rest ∧ List.Forall₂ LevelMatches init hd

/-- The filter matches the topic. -/
def MqttMatches (filter topic : String) : Prop :=
  LevelsMatch (splitLevels filter) (splitLevels topic) ∧
    ¬ ((startsWith filter "+" = true ∨ startsWith filter "#" = true) ∧
        startsWith topic "$" = true)

/-- A topic without wildcards. -/
def WildcardFree (topic : String) : Prop := '+' ∉ topic.toList ∧ '#' ∉ topic.toList

/-- `+` stands alone in its level, `#` stands alone in the last one. -/
def LevelsOk (ls : List String) : Prop :=
  ∀ init l rest, ls = init ++ l :: rest →
    ('+' ∈ l.toList → l = "+") ∧ ('#' ∈ l.toList → l = "#" ∧ rest = [])

/-! ## Levels of a string -/

theorem splitLevels_ne_nil (s : String) : splitLevels s ≠ [] := by
  simp [splitLevels, List.splitOn_ne_nil]

/-- Splitting at one `/`. -/
theorem splitLevels_append_slash (a b : List Char) :
    splitLevels (String.ofList (a ++ '/' :: b)) =
      splitLevels (String.ofList a) ++ splitLevels (String.ofList b) := by
  simp [splitLevels, List.splitOn_append_cons_self]

theorem splitLevels_of_not_mem {a : List Char} (h : '/' ∉ a) :
    splitLevels (String.ofList a) = [String.ofList a] := by
  simp [splitLevels, List.splitOn_eq_singleton h]

/-- The characters of a level occur in the string. -/
theorem mem_of_mem_splitLevels {s l : String} {c : Char} (hl : l ∈ splitLevels s)
    (hc : c ∈ l.toList) : c ∈ s.toList := by
  obtain ⟨cs, hcs, rfl⟩ := List.mem_map.1 hl
  rw [String.toList_ofList] at hc
  have hj : [('/' : Char)].intercalate (s.toList.splitOn '/') = s.toList :=
    List.intercalate_splitOn '/'
  rw [← hj]
  generalize s.toList.splitOn '/' = ls at hcs ⊢
  induction ls with
  | nil => simp at hcs
  | cons x xs ih =>
    rcases List.mem_cons.1 hcs with rfl | hx
    · cases xs with
      | nil => simpa using hc
      | cons y ys => simp [List.intercalate_cons_cons, hc]
    · cases xs with
      | nil => simp at hx
      | cons y ys =>
        rw [List.intercalate_cons_cons, List.mem_append, List.mem_append]
        exact Or.inr (ih hx)

/-- The first character of a string, unless it is `/`, is that of its first level. -/
theorem head?_splitLevels {s l : String} {ls : List String} {c : Char}
    (h : splitLevels s = l :: ls) (hc : c ≠ '/') :
    s.toList.head? = some c ↔ l.toList.head? = some c := by
  rcases hs : s.toList with _ | ⟨x, xs⟩
  · have hl : l = String.ofList [] := by
      simp only [splitLevels, hs, List.splitOn_nil, List.map_cons, List.map_nil,
        List.cons.injEq] at h
      exact h.1.symm
    simp [hl]
  · simp only [splitLevels, hs, List.splitOn_cons_eq_if_modifyHead] at h
    by_cases hx : x = '/'
    · subst hx
      simp only [beq_self_eq_true, if_true, List.map_cons, List.cons.injEq] at h
      simp [← h.1, hc.symm]
    · rcases hxs : xs.splitOn '/' with _ | ⟨y, ys⟩
      · exact absurd hxs (List.splitOn_ne_nil _ _)
      · simp only [beq_iff_eq, hx, if_false, hxs, List.modifyHead_cons, List.map_cons,
          List.cons.injEq] at h
        simp [← h.1]

theorem startsWith_singleton {s p : String} {c : Char} (hp : p.toList = [c]) :
    startsWith s p = true ↔ s.toList.head? = some c := by
  rw [startsWith, hp]
  rcases s.toList with _ | ⟨x, xs⟩
  · simp
  · rw [List.isPrefixOf_cons_cons, List.isPrefixOf_nil_left, Bool.and_true, beq_iff_eq, List.head?_cons,
      Option.some.injEq, eq_comm]

/-- A string starts with a character, other than `/`, iff its first level does. -/
theorem startsWith_iff_level {s p l : String} {ls : List String} {c : Char}
    (hp : p.toList = [c]) (h : splitLevels s = l :: ls) (hc : c ≠ '/') :
    startsWith s p = true ↔ l.toList.head? = some c :=
  (startsWith_singleton hp).trans (head?_splitLevels h hc)

/-! ## The levels of an accepted filter -/

theorem LevelsOk.suffix {ls ls' : List String} (h : LevelsOk ls) (hs : ls' <:+ ls) :
    LevelsOk ls' := by
  obtain ⟨pre, rfl⟩ := hs
  intro init l rest he
  exact h (pre ++ init) l rest (by rw [he, List.append_assoc])

/-- A `#` that passed the checks is the last level, and the only `#`. -/
theorem validateHash_levels {topic : String} (h : validateHash topic = .ok ())
    (hm : '#' ∈ topic.toList) :
    ∃ ls, splitLevels topic = ls ++ ["#"] ∧ ∀ l ∈ ls, '#' ∉ l.toList := by
  rw [validateHash, if_pos hm] at h
  dsimp only at h
  split at h
  · cases h
  · next hidx =>
    split at h
    · cases h
    · next hslash =>
      rcases List.eq_nil_or_concat topic.toList with hnil | ⟨xs, c, hcs⟩
      · rw [hnil] at hm; cases hm
      · rw [List.concat_eq_append] at hcs
        rw [hcs] at hidx hslash hm
        have hxs : '#' ∉ xs := by
          intro hin
          have hlt := List.idxOf_lt_length_of_mem hin
          rw [List.idxOf_append_of_mem hin, List.length_append, List.length_singleton] at hidx
          omega
        have hc : c = '#' := by
          rcases List.mem_append.1 hm with hin | hin
          · exact absurd hin hxs
          · exact (List.mem_singleton.1 hin).symm
        subst hc
        have hi : (xs ++ ['#']).idxOf '#' = xs.length := by
          rw [List.idxOf_append_of_notMem hxs, List.idxOf_cons_self, Nat.add_zero]
        have htopic : topic = String.ofList (xs ++ ['#']) := by
          rw [← hcs, String.ofList_toList]
        rw [hi] at hslash
        rcases List.eq_nil_or_concat xs with rfl | ⟨ys, d, rfl⟩
        · refine ⟨[], ?_, by simp⟩
          rw [htopic]
          exact splitLevels_of_not_mem (by decide)
        · have hd : d = '/' := by
            simp only [List.concat_eq_append, List.length_append, List.length_singleton] at hslash
            by_contra hne
            apply hslash
            refine ⟨by omega, ?_⟩
            simp [hne]
          subst hd
          refine ⟨splitLevels (String.ofList ys), ?_, ?_⟩
          · rw [htopic, List.concat_eq_append, List.append_assoc, List.singleton_append,
              splitLevels_append_slash, @splitLevels_of_not_mem ['#'] (by decide)]
          · intro l hl hin
            have := mem_of_mem_splitLevels hl hin
            rw [String.toList_ofList] at this
            exact hxs (by simp [this])

theorem validatePlus_level {topic l : String} (h : validatePlus topic = .ok ())
    (hl : l ∈ splitLevels topic) (hp : '+' ∈ l.toList) : l = "+" := by
  rw [validatePlus] at h
  split at h
  · cases h
  · next hno =>
    by_contra hne
    exact hno ⟨l, hl, hp, hne⟩

/-- The levels of a filter that `validate_subscribe_topic` accepts. -/
theorem validateSubscribeTopic_levels {topic : String}
    (h : validateSubscribeTopic topic = .ok ()) : LevelsOk (splitLevels topic) := by
  rw [validateSubscribeTopic] at h
  split at h
  · cases h
  · split at h
    · cases h
    · obtain ⟨⟨⟩, hhash, hplus⟩ : ∃ u, validateHash topic = .ok u ∧ validatePlus topic = .ok () := by
        rcases hh : validateHash topic with e | u
        · simp [hh, bind, Except.bind] at h
        · exact ⟨u, rfl, by simpa [hh, bind, Except.bind] using h⟩
      intro init l rest he
      have hl : l ∈ splitLevels topic := by simp [he]
      refine ⟨validatePlus_level hplus hl, ?_⟩
      intro hin
      obtain ⟨ls, hls, hno⟩ := validateHash_levels hhash (mem_of_mem_splitLevels hl hin)
      rw [he] at hls
      -- `l` holds a `#`, so it is not one of the levels before the last
      rcases List.eq_nil_or_concat rest with rfl | ⟨rest', l', rfl⟩
      · obtain ⟨-, h1⟩ := List.append_inj' hls rfl
        exact ⟨(List.cons.inj h1).1, rfl⟩
      · have hsplit : init ++ l :: rest'.concat l' = (init ++ l :: rest') ++ [l'] := by simp
        rw [hsplit] at hls
        obtain ⟨h1, -⟩ := List.append_inj' hls rfl
        exact absurd hin (hno l (by simp [← h1]))

/-! ## The filter the broker matches against -/

theorem afterSlash?_eq_some {cs : List Char} {s : String} (h : afterSlash? cs = some s) :
    ∃ pre, cs = pre ++ '/' :: s.toList := by
  unfold afterSlash? at h
  split at h
  · cases h
  · next x rest hd =>
    simp only [Option.some.injEq] at h
    have hx : x = '/' := by
      have hne : cs.dropWhile (fun c => decide (c ≠ '/')) ≠ [] := by rw [hd]; simp
      have hhead : (cs.dropWhile (fun c => decide (c ≠ '/'))).head hne = x := by
        simp only [hd, List.head_cons]
      have hnot := List.head_dropWhile_not _ hne
      rw [hhead] at hnot
      simpa using hnot
    refine ⟨cs.takeWhile (· ≠ '/'), ?_⟩
    subst hx
    rw [← h, String.toList_ofList, ← hd, List.takeWhile_append_dropWhile]

theorem splitLevels_suffix_of_toList {f s : String} {pre : List Char}
    (h : f.toList = pre ++ '/' :: s.toList) : splitLevels s <:+ splitLevels f := by
  have hf : f = String.ofList (pre ++ '/' :: s.toList) := by rw [← h, String.ofList_toList]
  rw [hf, splitLevels_append_slash, String.ofList_toList]
  exact List.suffix_append _ _

/-- What is removed is nothing, or a text that ends with a `/`. -/
theorem sharedFilterToActual_eq (filter : String) (strippedPrefixes : List String) :
    sharedFilterToActual filter strippedPrefixes = filter ∨
      ∃ pre, filter.toList = pre ++ '/' :: (sharedFilterToActual filter strippedPrefixes).toList := by
  unfold sharedFilterToActual
  split
  · next actual h =>
    unfold shareActual? at h
    split at h
    · obtain ⟨pre, hpre⟩ := afterSlash?_eq_some h
      right
      refine ⟨filter.toList.take 7 ++ pre, ?_⟩
      rw [List.append_assoc, ← hpre, List.take_append_drop]
    · cases h
  · split
    · rcases ha : afterSlash? filter.toList with _ | actual
      · exact .inl rfl
      · exact .inr (afterSlash?_eq_some ha)
    · exact .inl rfl

/-- Removing a shared or decorator prefix keeps the last levels of the filter. -/
theorem sharedFilterToActual_suffix (filter : String) (strippedPrefixes : List String) :
    splitLevels (sharedFilterToActual filter strippedPrefixes) <:+ splitLevels filter := by
  obtain h | ⟨pre, hpre⟩ := sharedFilterToActual_eq filter strippedPrefixes
  · rw [h]
  · exact splitLevels_suffix_of_toList hpre

/-! ## The matcher computes the declarative rule -/

theorem levelsMatch_nil (fs : List String) : LevelsMatch fs [] ↔ fs = [] ∨ fs = ["#"] := by
  constructor
  · rintro (h | ⟨init, hd, rest, rfl, he, h⟩)
    · exact Or.inl (List.forall₂_nil_right_iff.1 h)
    · obtain ⟨rfl, -⟩ := List.append_eq_nil_iff.1 he.symm
      rw [List.forall₂_nil_right_iff.1 h]
      exact Or.inr rfl
  · rintro (rfl | rfl)
    · exact Or.inl List.Forall₂.nil
    · exact Or.inr ⟨[], [], [], rfl, rfl, List.Forall₂.nil⟩

theorem levelsMatch_hash (ts : List String) : LevelsMatch ["#"] ts :=
  Or.inr ⟨[], [], ts, rfl, rfl, List.Forall₂.nil⟩

theorem levelsMatch_nil_left (ts : List String) : LevelsMatch [] ts ↔ ts = [] := by
  constructor
  · rintro (h | ⟨init, hd, rest, he, -, -⟩)
    · exact List.forall₂_nil_left_iff.1 h
    · simp at he
  · rintro rfl
    exact Or.inl List.Forall₂.nil

theorem levelsMatch_cons {f t : String} (fs ts : List String) (hf : f ≠ "#") :
    LevelsMatch (f :: fs) (t :: ts) ↔ LevelMatches f t ∧ LevelsMatch fs ts := by
  constructor
  · rintro (h | ⟨init, hd, rest, he, ht, h⟩)
    · obtain ⟨h1, h2⟩ := List.forall₂_cons.1 h
      exact ⟨h1, Or.inl h2⟩
    · cases init with
      | nil => exact absurd (List.cons.inj he).1 hf
      | cons x xs =>
        cases h with
        | cons h1 h2 =>
          obtain ⟨rfl, rfl⟩ := List.cons.inj he
          obtain ⟨rfl, rfl⟩ := List.cons.inj ht
          exact ⟨h1, Or.inr ⟨xs, _, rest, rfl, rfl, h2⟩⟩
  · rintro ⟨h1, h2 | ⟨init, hd, rest, rfl, rfl, h2⟩⟩
    · exact Or.inl (List.Forall₂.cons h1 h2)
    · exact Or.inr ⟨f :: init, t :: hd, rest, rfl, rfl, List.Forall₂.cons h1 h2⟩

theorem matchParts_iff {fs ts : List String} (hf : LevelsOk fs) :
    matchParts fs ts = true ↔ LevelsMatch fs ts := by
  induction fs generalizing ts with
  | nil => rw [levelsMatch_nil_left, matchParts, List.isEmpty_iff]
  | cons f fs ih =>
    by_cases hh : f = "#"
    · subst hh
      obtain ⟨-, hlast⟩ := hf [] "#" fs rfl
      obtain ⟨-, rfl⟩ := hlast (by decide)
      simp [matchParts, levelsMatch_hash]
    · cases ts with
      | nil => simp [matchParts, hh, levelsMatch_nil]
      | cons t ts =>
        rw [levelsMatch_cons fs ts hh, ← ih (hf.suffix (List.suffix_cons f fs)), matchParts,
          if_neg hh]
        by_cases hm : f ≠ "+" ∧ f ≠ t
        · simp [LevelMatches, hm]
        · have : LevelMatches f t := by
            unfold LevelMatches
            tauto
          simp [this, hm]

/-- A match fixes the first level: it is a wildcard or the topic's. -/
theorem LevelsMatch.head {f t : String} {fs ts : List String}
    (h : LevelsMatch (f :: fs) (t :: ts)) : f = "#" ∨ f = "+" ∨ f = t := by
  by_cases hh : f = "#"
  · exact Or.inl hh
  · exact Or.inr ((levelsMatch_cons fs ts hh).1 h).1

/-- `_topic_matches` is the rule of MQTT 4.7 on every filter with well-formed levels. -/
theorem topicMatchesActual_iff {filter topic : String} (hf : LevelsOk (splitLevels filter)) :
    topicMatchesActual filter topic = true ↔ MqttMatches filter topic := by
  obtain ⟨f, fs, hfs⟩ := List.exists_cons_of_ne_nil (splitLevels_ne_nil filter)
  obtain ⟨t, ts, hts⟩ := List.exists_cons_of_ne_nil (splitLevels_ne_nil topic)
  have hfd := startsWith_iff_level (p := "$") (c := '$') rfl hfs (by decide)
  have htd := startsWith_iff_level (p := "$") (c := '$') rfl hts (by decide)
  have hfp := startsWith_iff_level (p := "+") (c := '+') rfl hfs (by decide)
  have hfh := startsWith_iff_level (p := "#") (c := '#') rfl hfs (by decide)
  unfold topicMatchesActual MqttMatches
  by_cases hd : startsWith topic "$" = startsWith filter "$"
  · rw [if_neg (not_not.2 hd), matchParts_iff hf]
    refine ⟨fun h => ⟨h, ?_⟩, fun h => h.1⟩
    -- a topic under `$` has a filter under `$`, which starts with no wildcard
    rintro ⟨hw, ht⟩
    rw [hd, hfd] at ht
    rw [hfp, hfh, ht] at hw
    simp at hw
  · rw [if_pos hd]
    refine ⟨fun h => absurd h (by decide), ?_⟩
    rintro ⟨hm, hw⟩
    rw [hfs, hts] at hm
    exfalso
    rcases hm.head with rfl | rfl | rfl
    · apply hd
      have h1 : startsWith filter "$" = false := by
        rw [← Bool.not_eq_true, hfd]; decide
      have h2 : startsWith filter "#" = true := hfh.2 (by decide)
      have h3 : startsWith topic "$" = false := by
        rw [← Bool.not_eq_true]
        exact fun ht => hw ⟨Or.inr h2, ht⟩
      rw [h1, h3]
    · apply hd
      have h1 : startsWith filter "$" = false := by
        rw [← Bool.not_eq_true, hfd]; decide
      have h2 : startsWith filter "+" = true := hfp.2 (by decide)
      have h3 : startsWith topic "$" = false := by
        rw [← Bool.not_eq_true]
        exact fun ht => hw ⟨Or.inl h2, ht⟩
      rw [h1, h3]
    · exact hd (Bool.eq_iff_iff.2 (htd.trans hfd.symm))

end Zmqtt
