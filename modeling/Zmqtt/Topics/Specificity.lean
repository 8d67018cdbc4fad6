/-
  The order of `_filter_specificity` and the topics a filter matches.

  Among the filters that match one topic, the lexicographic order of the ranks is a linear
  extension of strict inclusion between the sets of matched topics (`specificity_lt_of_ssubset`),
  and filters of equal ranks are equal (`eq_of_specificity_eq`). A topic that tells two filters
  apart is the common one with one level changed.
-/
import Mathlib
import Zmqtt.Topics.Filter

namespace Zmqtt

/-! ## Topics and their levels -/

/-- Levels that a topic without wildcards can have. -/
def TopicLevels (ts : List String) : Prop :=
  ∀ t ∈ ts, '/' ∉ t.toList ∧ '+' ∉ t.toList ∧ '#' ∉ t.toList

/-- `"/".join(levels)`. -/
def joinLevels (ts : List String) : String :=
  String.ofList (['/'].intercalate (ts.map String.toList))

/-- The topics that a filter matches. -/
def matchedTopics (filter : String) : Set String :=
  {topic | WildcardFree topic ∧ MqttMatches filter topic}

theorem not_mem_of_mem_splitOn {cs l : List Char} {c : Char} (h : l ∈ cs.splitOn c) : c ∉ l := by
  induction cs generalizing l with
  | nil =>
    rw [List.splitOn_nil, List.mem_singleton] at h
    rw [h]
    exact List.not_mem_nil
  | cons x xs ih =>
    rw [List.splitOn_cons_eq_if_modifyHead] at h
    by_cases hx : x = c
    · rw [if_pos (by simpa using hx)] at h
      rcases List.mem_cons.1 h with rfl | h
      · exact List.not_mem_nil
      · exact ih h
    · rw [if_neg (by simpa using hx)] at h
      rcases hs : xs.splitOn c with _ | ⟨y, ys⟩
      · rw [hs] at h
        cases h
      · rw [hs, List.modifyHead_cons] at h
        rcases List.mem_cons.1 h with rfl | h
        · have hy : c ∉ y := ih (by rw [hs]; exact List.mem_cons_self)
          rw [List.mem_cons, not_or]
          exact ⟨Ne.symm hx, hy⟩
        · exact ih (by rw [hs]; exact List.mem_cons_of_mem y h)

theorem WildcardFree.topicLevels {topic : String} (h : WildcardFree topic) :
    TopicLevels (splitLevels topic) := by
  intro t ht
  refine ⟨?_, fun hc => h.1 (mem_of_mem_splitLevels ht hc),
    fun hc => h.2 (mem_of_mem_splitLevels ht hc)⟩
  obtain ⟨cs, hcs, rfl⟩ := List.mem_map.1 ht
  rw [String.toList_ofList]
  exact not_mem_of_mem_splitOn hcs

theorem splitLevels_joinLevels {ts : List String} (hne : ts ≠ []) (h : TopicLevels ts) :
    splitLevels (joinLevels ts) = ts := by
  have hno : ∀ l ∈ ts.map String.toList, '/' ∉ l := by
    intro l hl
    obtain ⟨t, ht, rfl⟩ := List.mem_map.1 hl
    exact (h t ht).1
  rw [splitLevels, joinLevels, String.toList_ofList,
    List.splitOn_intercalate '/' hno (by simpa using hne), List.map_map]
  simp [Function.comp_def]

theorem joinLevels_splitLevels (s : String) : joinLevels (splitLevels s) = s := by
  rw [joinLevels, splitLevels, List.map_map]
  have hid : String.toList ∘ String.ofList = id := by
    funext cs
    exact String.toList_ofList
  rw [hid, List.map_id, List.intercalate_splitOn, String.ofList_toList]

theorem splitLevels_injective : Function.Injective splitLevels :=
  Function.LeftInverse.injective joinLevels_splitLevels

/-- The characters of a joined string are those of its levels, and `/`. -/
theorem mem_joinLevels {ts : List String} {c : Char} (hc : c ∈ (joinLevels ts).toList) :
    c = '/' ∨ ∃ t ∈ ts, c ∈ t.toList := by
  rw [joinLevels, String.toList_ofList] at hc
  induction ts with
  | nil => simp at hc
  | cons t ts ih =>
    cases ts with
    | nil => exact Or.inr ⟨t, List.mem_cons_self, by simpa using hc⟩
    | cons u us =>
      rw [List.map_cons, List.map_cons, List.intercalate_cons_cons, List.mem_append,
        List.mem_append, List.mem_singleton] at hc
      rcases hc with (hc | hc) | hc
      · exact Or.inr ⟨t, List.mem_cons_self, hc⟩
      · exact Or.inl hc
      · rcases ih hc with hc | ⟨v, hv, hc⟩
        · exact Or.inl hc
        · exact Or.inr ⟨v, List.mem_cons_of_mem t hv, hc⟩

theorem TopicLevels.wildcardFree {ts : List String} (h : TopicLevels ts) :
    WildcardFree (joinLevels ts) := by
  constructor
  · intro hc
    rcases mem_joinLevels hc with hc | ⟨t, ht, hc⟩
    · exact absurd hc (by decide)
    · exact (h t ht).2.1 hc
  · intro hc
    rcases mem_joinLevels hc with hc | ⟨t, ht, hc⟩
    · exact absurd hc (by decide)
    · exact (h t ht).2.2 hc

theorem TopicLevels.cons {t : String} {ts : List String}
    (ht : '/' ∉ t.toList ∧ '+' ∉ t.toList ∧ '#' ∉ t.toList) (h : TopicLevels ts) :
    TopicLevels (t :: ts) :=
  List.forall_mem_cons.2 ⟨ht, h⟩

/-- A level other than `t`. -/
def otherLevel (t : String) : String := String.ofList (t.toList ++ ['a'])

theorem otherLevel_ne (t : String) : otherLevel t ≠ t := by
  intro h
  have hlen := congrArg (fun s : String => s.toList.length) h
  simp [otherLevel] at hlen

theorem not_mem_otherLevel {t : String} {c : Char} (h : c ∉ t.toList) (hc : c ≠ 'a') :
    c ∉ (otherLevel t).toList := by
  rw [otherLevel, String.toList_ofList, List.mem_append, List.mem_singleton, not_or]
  exact ⟨h, hc⟩

theorem TopicLevels.other {t : String} {ts : List String} (h : TopicLevels (t :: ts)) :
    TopicLevels (otherLevel t :: ts) := by
  obtain ⟨⟨hs, hp, hh⟩, hts⟩ := List.forall_mem_cons.1 h
  exact TopicLevels.cons ⟨not_mem_otherLevel hs (by decide), not_mem_otherLevel hp (by decide),
    not_mem_otherLevel hh (by decide)⟩ hts

/-- A literal level that matches `t` does not match another level. -/
theorem not_levelMatches_other {f t : String} (hp : f ≠ "+") (hm : LevelMatches f t) :
    ¬ LevelMatches f (otherLevel t) := by
  rintro (h | h)
  · exact hp h
  · exact otherLevel_ne t (h.symm.trans (hm.resolve_left hp))

/-! ## Below the first level -/

/-- Every topic below that `gs` matches is one that `fs` matches. -/
def Covers (fs gs : List String) : Prop :=
  ∀ ts, TopicLevels ts → LevelsMatch gs ts → LevelsMatch fs ts

theorem LevelsOk.hash {f : String} {fs : List String} (h : LevelsOk (f :: fs)) (hf : f = "#") :
    fs = [] :=
  ((h [] f fs rfl).2 (by rw [hf]; decide)).2

theorem LevelsOk.tail {f : String} {fs : List String} (h : LevelsOk (f :: fs)) : LevelsOk fs :=
  h.suffix (List.suffix_cons f fs)

theorem segmentRank_plus : segmentRank "+" = 1 := by decide

theorem segmentRank_literal {f : String} (hh : f ≠ "#") (hp : f ≠ "+") : segmentRank f = 0 := by
  rw [segmentRank, if_neg hh, if_neg hp]

/-- The first levels decide, when they differ: the larger one is the wildcard. -/
theorem rank_lt_cons {g f t : String} {gs fs : List String} (hgh : g ≠ "#")
    (hg : LevelMatches g t) (hf : f ≠ "#" → LevelMatches f t) (hplus : g = "+" → f = "+" ∨ f = "#")
    (hsame : g = f → gs.map segmentRank < fs.map segmentRank) :
    (g :: gs).map segmentRank < (f :: fs).map segmentRank := by
  rw [List.map_cons, List.map_cons, List.cons_lt_cons_iff]
  by_cases hgp : g = "+"
  · rcases hplus hgp with hfp | hfh
    · have hgf : g = f := hgp.trans hfp.symm
      exact Or.inr ⟨by rw [hgf], hsame hgf⟩
    · exact Or.inl (by rw [hgp, hfh]; decide)
  · rw [segmentRank_literal hgh hgp]
    by_cases hfh : f = "#"
    · exact Or.inl (by rw [hfh]; decide)
    · by_cases hfp : f = "+"
      · exact Or.inl (by rw [hfp]; decide)
      · have hgf : g = f := (hg.resolve_left hgp).trans ((hf hfh).resolve_left hfp).symm
        exact Or.inr ⟨(segmentRank_literal hfh hfp).symm, hsame hgf⟩

/-- Inclusion between filters with one first level is inclusion below it. -/
theorem covers_cons {f t : String} {gs fs : List String} (hf : f ≠ "#")
    (ht : '/' ∉ t.toList ∧ '+' ∉ t.toList ∧ '#' ∉ t.toList) (hm : LevelMatches f t) :
    Covers (f :: fs) (f :: gs) ↔ Covers fs gs := by
  constructor
  · intro h ts hts hg
    have hcons := h (t :: ts) (hts.cons ht) ((levelsMatch_cons gs ts hf).2 ⟨hm, hg⟩)
    exact ((levelsMatch_cons fs ts hf).1 hcons).2
  · intro h ts hts hg
    cases ts with
    | nil =>
      rcases (levelsMatch_nil _).1 hg with he | he
      · cases he
      · exact absurd (List.cons.inj he).1 hf
    | cons u us =>
      obtain ⟨hu, hus⟩ := (levelsMatch_cons gs us hf).1 hg
      exact (levelsMatch_cons fs us hf).2
        ⟨hu, h us (List.forall_mem_cons.1 hts).2 hus⟩

/-- Of two filters that match a common topic, one that matches strictly less has a smaller
    rank. The induction is on the levels of the smaller filter; where the first levels
    differ, the larger one is the wildcard. -/
theorem rank_lt_of_covers {gs fs ts : List String} (hg : LevelsOk gs) (hf : LevelsOk fs)
    (ht : TopicLevels ts) (hgt : LevelsMatch gs ts) (hft : LevelsMatch fs ts)
    (hcov : Covers fs gs) (hstrict : ¬ Covers gs fs) :
    gs.map segmentRank < fs.map segmentRank := by
  induction gs generalizing fs ts with
  | nil =>
    rw [levelsMatch_nil_left] at hgt
    subst hgt
    rcases (levelsMatch_nil fs).1 hft with rfl | rfl
    · exact absurd hcov hstrict
    · decide
  | cons g gs ih =>
    have hghash : g ≠ "#" := by
      rintro rfl
      obtain rfl := hg.hash rfl
      exact hstrict fun us _ _ => levelsMatch_hash us
    cases ts with
    | nil =>
      rcases (levelsMatch_nil _).1 hgt with he | he
      · cases he
      · exact absurd (List.cons.inj he).1 hghash
    | cons t ts =>
      obtain ⟨hgm, hgts⟩ := (levelsMatch_cons gs ts hghash).1 hgt
      obtain ⟨htl, hts⟩ := List.forall_mem_cons.1 ht
      cases fs with
      | nil =>
        rw [levelsMatch_nil_left] at hft
        cases hft
      | cons f fs =>
        have hfm : f ≠ "#" → LevelMatches f t ∧ LevelsMatch fs ts :=
          fun hfh => (levelsMatch_cons fs ts hfh).1 hft
        refine rank_lt_cons hghash hgm (fun hfh => (hfm hfh).1) ?_ ?_
        · -- a literal level of `f` would not match the topic with another level here
          intro hgp
          by_contra hwild
          obtain ⟨hfp, hfh⟩ := not_or.1 hwild
          have hother := hcov (otherLevel t :: ts) ht.other
            ((levelsMatch_cons gs ts hghash).2 ⟨Or.inl hgp, hgts⟩)
          exact not_levelMatches_other hfp (hfm hfh).1 ((levelsMatch_cons fs ts hfh).1 hother).1
        · rintro rfl
          refine ih hg.tail hf.tail hts hgts (hfm hghash).2 ?_ ?_
          · exact (covers_cons hghash htl hgm).1 hcov
          · exact fun h => hstrict ((covers_cons hghash htl hgm).2 h)

/-- Filters of equal ranks that match a common topic have the same levels. -/
theorem levels_eq_of_rank_eq {gs fs ts : List String} (hg : LevelsOk gs) (hf : LevelsOk fs)
    (hgt : LevelsMatch gs ts) (hft : LevelsMatch fs ts)
    (hrank : gs.map segmentRank = fs.map segmentRank) : gs = fs := by
  induction gs generalizing fs ts with
  | nil => exact (List.map_eq_nil_iff.1 hrank.symm).symm
  | cons g gs ih =>
    cases fs with
    | nil => cases hrank
    | cons f fs =>
      obtain ⟨hhead, htail⟩ := List.cons.inj hrank
      by_cases hgh : g = "#"
      · have hfh : f = "#" := by
          by_contra hne
          rw [hgh, segmentRank, segmentRank, if_pos rfl, if_neg hne] at hhead
          split at hhead <;> cases hhead
        rw [hgh, hfh, hg.hash hgh, hf.hash hfh]
      · have hfh : f ≠ "#" := by
          rintro rfl
          rw [segmentRank, segmentRank, if_neg hgh, if_pos rfl] at hhead
          split at hhead <;> cases hhead
        cases ts with
        | nil =>
          rcases (levelsMatch_nil _).1 hgt with he | he
          · cases he
          · exact absurd (List.cons.inj he).1 hgh
        | cons t ts =>
          obtain ⟨hgm, hgts⟩ := (levelsMatch_cons gs ts hgh).1 hgt
          obtain ⟨hfm, hfts⟩ := (levelsMatch_cons fs ts hfh).1 hft
          rw [ih hg.tail hf.tail hgts hfts htail]
          have hgf : g = f := by
            by_cases hgp : g = "+"
            · by_contra hne
              have hfp : f ≠ "+" := fun he => hne (hgp.trans he.symm)
              rw [hgp, segmentRank_plus, segmentRank_literal hfh hfp] at hhead
              cases hhead
            · have hfp : f ≠ "+" := by
                intro he
                rw [segmentRank_literal hgh hgp, he, segmentRank_plus] at hhead
                cases hhead
              exact (hgm.resolve_left hgp).trans (hfm.resolve_left hfp).symm
          rw [hgf]

/-! ## Whole filters -/

/-- A first level that is a wildcard hides the topics that start with `$`. -/
def Hides (f t : String) : Prop := (f = "+" ∨ f = "#") ∧ t.toList.head? = some '$'

theorem LevelsOk.first_wildcard {f : String} {fs : List String} (h : LevelsOk (f :: fs)) :
    (f.toList.head? = some '+' ∨ f.toList.head? = some '#') ↔ (f = "+" ∨ f = "#") := by
  obtain ⟨hp, hh⟩ := h [] f fs rfl
  constructor
  · rintro (hc | hc)
    · exact Or.inl (hp (List.mem_of_mem_head? hc))
    · exact Or.inr (hh (List.mem_of_mem_head? hc)).1
  · rintro (rfl | rfl)
    · exact Or.inl rfl
    · exact Or.inr rfl

/-- `MqttMatches` by levels. -/
theorem mqttMatches_iff {filter topic f t : String} {fs ts : List String}
    (hf : splitLevels filter = f :: fs) (ht : splitLevels topic = t :: ts)
    (hok : LevelsOk (f :: fs)) :
    MqttMatches filter topic ↔ LevelsMatch (f :: fs) (t :: ts) ∧ ¬ Hides f t := by
  have hp := startsWith_iff_level (p := "+") (c := '+') rfl hf (by decide)
  have hh := startsWith_iff_level (p := "#") (c := '#') rfl hf (by decide)
  have hd := startsWith_iff_level (p := "$") (c := '$') rfl ht (by decide)
  rw [MqttMatches, hf, ht, hp, hh, hd, hok.first_wildcard]
  rfl

/-- The topic with the given levels is one that the filter matches. -/
theorem mem_matchedTopics_join {filter f t : String} {fs ts : List String}
    (hf : splitLevels filter = f :: fs) (hok : LevelsOk (f :: fs)) (hts : TopicLevels (t :: ts)) :
    joinLevels (t :: ts) ∈ matchedTopics filter ↔
      LevelsMatch (f :: fs) (t :: ts) ∧ ¬ Hides f t := by
  rw [← mqttMatches_iff hf (splitLevels_joinLevels (List.cons_ne_nil t ts) hts) hok]
  exact ⟨fun h => h.2, fun h => ⟨hts.wildcardFree, h⟩⟩

theorem mem_matchedTopics_levels {filter topic f : String} {fs : List String}
    (hf : splitLevels filter = f :: fs) (hok : LevelsOk (f :: fs))
    (h : topic ∈ matchedTopics filter) :
    ∃ t ts, splitLevels topic = t :: ts ∧ TopicLevels (t :: ts) ∧ LevelsMatch (f :: fs) (t :: ts) ∧
      ¬ Hides f t := by
  obtain ⟨t, ts, hts⟩ := List.exists_cons_of_ne_nil (splitLevels_ne_nil topic)
  have htl := h.1.topicLevels
  rw [hts] at htl
  exact ⟨t, ts, hts, htl, (mqttMatches_iff hf hts hok).1 h.2⟩

/-- Another first level does not start with `$` when the first does not. -/
theorem not_hides_other {g t : String} (hg : g = "+" ∨ g = "#") (h : ¬ Hides g t) :
    ¬ Hides g (otherLevel t) := by
  rintro ⟨-, hd⟩
  apply h
  refine ⟨hg, ?_⟩
  rw [otherLevel, String.toList_ofList] at hd
  rcases ht : t.toList with _ | ⟨c, cs⟩
  · rw [ht] at hd
    simp at hd
  · rw [ht] at hd
    simpa using hd

section Common

variable {gf ff topic g f t : String} {gs fs ts : List String}

/-- With one first level, inclusion of the filters is inclusion below it. -/
theorem covers_of_subset (hg : splitLevels gf = f :: gs) (hf : splitLevels ff = f :: fs)
    (hgok : LevelsOk (f :: gs)) (hfok : LevelsOk (f :: fs)) (hhash : f ≠ "#")
    (ht : TopicLevels (t :: ts)) (hm : LevelMatches f t) (hhide : ¬ Hides f t) :
    matchedTopics gf ⊆ matchedTopics ff ↔ Covers fs gs := by
  obtain ⟨htl, -⟩ := List.forall_mem_cons.1 ht
  constructor
  · intro hsub us hus hgu
    have hcons : TopicLevels (t :: us) := hus.cons htl
    have hmem := hsub ((mem_matchedTopics_join hg hgok hcons).2
      ⟨(levelsMatch_cons gs us hhash).2 ⟨hm, hgu⟩, hhide⟩)
    exact ((levelsMatch_cons fs us hhash).1 ((mem_matchedTopics_join hf hfok hcons).1 hmem).1).2
  · intro hcov x hx
    obtain ⟨u, us, hu, hul, hgm, hgh⟩ := mem_matchedTopics_levels hg hgok hx
    obtain ⟨hfu, hus⟩ := (levelsMatch_cons gs us hhash).1 hgm
    refine ⟨hx.1, (mqttMatches_iff hf hu hfok).2 ⟨?_, hgh⟩⟩
    exact (levelsMatch_cons fs us hhash).2 ⟨hfu, hcov us (List.forall_mem_cons.1 hul).2 hus⟩

/-- **Ranks extend inclusion.** Of two well-formed filters that match a common topic, the one
    that matches strictly fewer topics is strictly more specific. -/
theorem specificity_lt_of_ssubset (hgok : LevelsOk (splitLevels gf)) (hfok : LevelsOk (splitLevels ff))
    (hg : topic ∈ matchedTopics gf) (hf : topic ∈ matchedTopics ff)
    (hss : matchedTopics gf ⊂ matchedTopics ff) : filterSpecificity gf < filterSpecificity ff := by
  obtain ⟨g, gs, hgs⟩ := List.exists_cons_of_ne_nil (splitLevels_ne_nil gf)
  obtain ⟨f, fs, hfs⟩ := List.exists_cons_of_ne_nil (splitLevels_ne_nil ff)
  rw [hgs] at hgok
  rw [hfs] at hfok
  obtain ⟨t, ts, hts, htl, hgm, hgh⟩ := mem_matchedTopics_levels hgs hgok hg
  obtain ⟨-, hfm, hfh⟩ : TopicLevels (t :: ts) ∧ LevelsMatch (f :: fs) (t :: ts) ∧ ¬ Hides f t :=
    ⟨htl, (mqttMatches_iff hfs hts hfok).1 hf.2⟩
  rw [filterSpecificity, filterSpecificity, hgs, hfs]
  have hghash : g ≠ "#" := by
    rintro rfl
    obtain rfl := hgok.hash rfl
    by_cases hwild : f = "+" ∨ f = "#"
    · -- what a first wildcard matches, `#` matches
      apply hss.not_subset
      intro x hx
      obtain ⟨u, us, hu, -, -, hfu⟩ := mem_matchedTopics_levels hfs hfok hx
      refine ⟨hx.1, (mqttMatches_iff hgs hu hgok).2 ⟨levelsMatch_hash _, ?_⟩⟩
      exact fun hh => hfu ⟨hwild, hh.2⟩
    · obtain ⟨hfp, hfhash⟩ := not_or.1 hwild
      have hmem := hss.subset ((mem_matchedTopics_join hgs hgok htl.other).2
        ⟨levelsMatch_hash _, not_hides_other (Or.inr rfl) hgh⟩)
      have hother := ((mem_matchedTopics_join hfs hfok htl.other).1 hmem).1
      exact not_levelMatches_other hfp ((levelsMatch_cons fs ts hfhash).1 hfm).1
        ((levelsMatch_cons fs ts hfhash).1 hother).1
  obtain ⟨hgt, hgts⟩ := (levelsMatch_cons gs ts hghash).1 hgm
  refine rank_lt_cons hghash hgt (fun hfh => ((levelsMatch_cons fs ts hfh).1 hfm).1) ?_ ?_
  · intro hgp
    by_contra hwild
    obtain ⟨hfp, hfh⟩ := not_or.1 hwild
    have hmem := hss.subset ((mem_matchedTopics_join hgs hgok htl.other).2
      ⟨(levelsMatch_cons gs ts hghash).2 ⟨Or.inl hgp, hgts⟩, not_hides_other (Or.inl hgp) hgh⟩)
    have hother := ((mem_matchedTopics_join hfs hfok htl.other).1 hmem).1
    exact not_levelMatches_other hfp ((levelsMatch_cons fs ts hfh).1 hfm).1
      ((levelsMatch_cons fs ts hfh).1 hother).1
  · rintro rfl
    have hsub := covers_of_subset hgs hfs hgok hfok hghash htl hgt hgh
    have hsup := covers_of_subset hfs hgs hfok hgok hghash htl hgt hgh
    exact rank_lt_of_covers hgok.tail hfok.tail (List.forall_mem_cons.1 htl).2 hgts
      ((levelsMatch_cons fs ts hghash).1 hfm).2 (hsub.1 hss.subset)
      fun h => hss.not_subset (hsup.2 h)

/-- Filters of equal specificity that match a common topic are the same. -/
theorem eq_of_specificity_eq (hgok : LevelsOk (splitLevels gf)) (hfok : LevelsOk (splitLevels ff))
    (hg : MqttMatches gf topic) (hf : MqttMatches ff topic)
    (h : filterSpecificity gf = filterSpecificity ff) : gf = ff :=
  splitLevels_injective (levels_eq_of_rank_eq hgok hfok hg.1 hf.1 h)

end Common

end Zmqtt
