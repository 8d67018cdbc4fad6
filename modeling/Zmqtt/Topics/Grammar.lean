/-
  The filters that `validate_subscribe_topic` accepts, as a grammar of levels.

  The checks of the source look at characters: the first `#`, the character before it, the
  last index. `FilterGrammar` looks at levels: each is free of wildcards, or is `+`, or is
  `#` and the last one. `validateSubscribeTopic_grammar` says that the two agree, and that
  what remains of an accepted filter without its shared or decorator prefix is accepted,
  unless nothing remains.
-/
import Zmqtt.Topics.Specificity

namespace Zmqtt

/-- Each level is free of wildcards, or `+`, or `#` in the last position. -/
def LevelsGrammar (levels : List String) : Prop :=
  ∀ (i : Nat) level, levels[i]? = some level →
    ('+' ∉ level.toList ∧ '#' ∉ level.toList) ∨ level = "+" ∨
      (level = "#" ∧ i + 1 = levels.length)

/-- Not empty, a `$` only as the first character, and the grammar of the levels. -/
def FilterGrammar (s : String) : Prop :=
  s ≠ "" ∧ (∀ i, s.toList[i]? = some '$' → i = 0) ∧ LevelsGrammar (splitLevels s)

/-! ## Levels -/

theorem levelsGrammar_iff {ls : List String} : LevelsGrammar ls ↔ LevelsOk ls := by
  constructor
  · intro h init l rest hls
    have hl : ls[init.length]? = some l := by simp [hls]
    have hlen : ls.length = init.length + 1 + rest.length := by
      rw [hls, List.length_append, List.length_cons]
      omega
    obtain ⟨hp, hh⟩ | rfl | ⟨rfl, hlast⟩ := h _ _ hl
    · exact ⟨fun hin => absurd hin hp, fun hin => absurd hin hh⟩
    · exact ⟨fun _ => rfl, fun hin => absurd hin (by decide)⟩
    · exact ⟨fun hin => absurd hin (by decide),
        fun _ => ⟨rfl, List.eq_nil_of_length_eq_zero (by omega)⟩⟩
  · intro h i l hl
    have hlt : i < ls.length := (List.getElem?_eq_some_iff.1 hl).1
    have hget : ls[i] = l := (List.getElem?_eq_some_iff.1 hl).2
    have hls : ls = ls.take i ++ l :: ls.drop (i + 1) := by
      rw [← hget, List.getElem_cons_drop, List.take_append_drop]
    obtain ⟨hp, hh⟩ := h _ _ _ hls
    by_cases hplus : '+' ∈ l.toList
    · exact .inr (.inl (hp hplus))
    · by_cases hhash : '#' ∈ l.toList
      · obtain ⟨hl', hrest⟩ := hh hhash
        have hlen := congrArg List.length hrest
        rw [List.length_drop, List.length_nil] at hlen
        exact .inr (.inr ⟨hl', by omega⟩)
      · exact .inl ⟨hplus, hhash⟩

theorem joinLevels_concat {ls : List String} (l : String) (h : ls ≠ []) :
    (joinLevels (ls ++ [l])).toList = (joinLevels ls).toList ++ '/' :: l.toList := by
  simp only [joinLevels, String.toList_ofList]
  induction ls with
  | nil => exact absurd rfl h
  | cons x xs ih =>
    cases xs with
    | nil => simp
    | cons y ys =>
      rw [List.cons_append, List.cons_append, List.map_cons, List.map_cons,
        List.intercalate_cons_cons, ← List.map_cons, ← List.cons_append, ih (by simp)]
      simp only [List.map_cons, List.intercalate_cons_cons, List.append_assoc]

/-- The characters of a string whose levels are well-formed and that has a `#`: it is the
    last character, the only `#`, and stands alone or after a `/`. -/
theorem hash_last_of_levels {s : String} (h : LevelsOk (splitLevels s)) (hm : '#' ∈ s.toList) :
    ∃ cs, s.toList = cs ++ ['#'] ∧ '#' ∉ cs ∧ (cs = [] ∨ ∃ ds, cs = ds ++ ['/']) := by
  obtain hslash | ⟨l, hl, hin⟩ := mem_joinLevels (by rw [joinLevels_splitLevels]; exact hm)
  · exact absurd hslash (by decide)
  obtain ⟨init, rest, hls⟩ := List.append_of_mem hl
  obtain ⟨rfl, rfl⟩ := (h _ _ _ hls).2 hin
  have hinit : ∀ l' ∈ init, '#' ∉ l'.toList := by
    intro l' hl' hin'
    obtain ⟨a, b, rfl⟩ := List.append_of_mem hl'
    obtain ⟨-, hb⟩ := (h a l' (b ++ ["#"]) (by rw [hls, List.append_assoc]; rfl)).2 hin'
    exact absurd hb (by simp)
  have hs : s.toList = (joinLevels (init ++ ["#"])).toList := by
    rw [← hls, joinLevels_splitLevels]
  by_cases hnil : init = []
  · subst hnil
    exact ⟨[], hs, List.not_mem_nil, .inl rfl⟩
  · rw [joinLevels_concat "#" hnil] at hs
    refine ⟨(joinLevels init).toList ++ ['/'], ?_, ?_, .inr ⟨_, rfl⟩⟩
    · rw [hs, List.append_assoc]
      rfl
    · rw [List.mem_append, not_or]
      refine ⟨fun hj => ?_, by decide⟩
      obtain hslash | ⟨l', hl', hin'⟩ := mem_joinLevels hj
      · exact absurd hslash (by decide)
      · exact hinit l' hl' hin'

theorem validateHash_of_levels {s : String} (h : LevelsOk (splitLevels s)) :
    validateHash s = .ok () := by
  rw [validateHash]
  by_cases hm : '#' ∈ s.toList
  · rw [if_pos hm]
    obtain ⟨cs, hs, hno, hcs⟩ := hash_last_of_levels h hm
    have hidx : s.toList.idxOf '#' = cs.length := by
      rw [hs, List.idxOf_append_of_notMem hno, List.idxOf_cons_self, Nat.add_zero]
    have hlen : s.toList.length = cs.length + 1 := by rw [hs, List.length_append]; rfl
    dsimp only
    rw [hidx, if_neg (by omega), if_neg]
    rintro ⟨hpos, hprev⟩
    obtain rfl | ⟨ds, rfl⟩ := hcs
    · exact absurd hpos (by decide)
    · apply hprev
      rw [hs, List.length_append, List.length_singleton]
      simp
  · rw [if_neg hm]

theorem validatePlus_of_levels {s : String} (h : LevelsOk (splitLevels s)) :
    validatePlus s = .ok () := by
  rw [validatePlus, if_neg]
  rintro ⟨level, hl, hin, hne⟩
  obtain ⟨init, rest, hls⟩ := List.append_of_mem hl
  exact hne ((h _ _ _ hls).1 hin)

/-! ## The grammar -/

theorem dollar_first_iff {cs : List Char} :
    '$' ∉ cs.drop 1 ↔ ∀ i : Nat, cs[i]? = some '$' → i = 0 := by
  constructor
  · intro h i hi
    by_contra hne
    apply h
    refine List.mem_of_getElem? (show (cs.drop 1)[i - 1]? = some '$' from ?_)
    rw [List.getElem?_drop, show 1 + (i - 1) = i by omega]
    exact hi
  · intro h hin
    obtain ⟨i, hi⟩ := List.mem_iff_getElem?.1 hin
    rw [List.getElem?_drop] at hi
    exact absurd (h _ hi) (by omega)

/-- The checks of `validate_subscribe_topic` are the grammar. -/
theorem validateSubscribeTopic_iff {s : String} :
    validateSubscribeTopic s = .ok () ↔ FilterGrammar s := by
  have hempty : s.toList = [] ↔ s = "" := by
    rw [← String.toList_inj]
    exact Iff.rfl
  constructor
  · intro h
    refine ⟨?_, ?_, levelsGrammar_iff.2 (validateSubscribeTopic_levels h)⟩
    · rintro rfl
      exact absurd h (by decide)
    · rw [← dollar_first_iff]
      intro hin
      rw [validateSubscribeTopic] at h
      split at h
      · cases h
      · cases h
  · rintro ⟨hne, hdollar, hlevels⟩
    rw [levelsGrammar_iff] at hlevels
    rw [validateSubscribeTopic, if_neg (by rw [hempty]; exact hne),
      if_neg (dollar_first_iff.2 hdollar), validateHash_of_levels hlevels,
      validatePlus_of_levels hlevels]
    rfl

/-- What remains of a filter of the grammar without its prefix has the grammar, unless
    nothing remains. -/
theorem FilterGrammar.actual {s : String} (h : FilterGrammar s) (strippedPrefixes : List String)
    (hne : sharedFilterToActual s strippedPrefixes ≠ "") :
    FilterGrammar (sharedFilterToActual s strippedPrefixes) := by
  obtain ⟨-, hdollar, hlevels⟩ := h
  refine ⟨hne, ?_, ?_⟩
  · obtain heq | ⟨pre, hpre⟩ := sharedFilterToActual_eq s strippedPrefixes
    · rw [heq]
      exact hdollar
    · -- what remains stands after a `/`, so none of it is the first character
      intro i hi
      have hlater : s.toList[pre.length + 1 + i]? = some '$' := by
        rw [hpre, List.getElem?_append_right (by omega),
          show pre.length + 1 + i - pre.length = i + 1 by omega, List.getElem?_cons_succ]
        exact hi
      exact absurd (hdollar _ hlater) (by omega)
  · rw [levelsGrammar_iff] at hlevels ⊢
    exact hlevels.suffix (sharedFilterToActual_suffix s strippedPrefixes)

/-- **The grammar of `validate_subscribe_topic`.** A string is accepted exactly when it
    belongs to the grammar, and so is every non-empty text that `_shared_filter_to_actual`
    leaves of an accepted one. -/
theorem validateSubscribeTopic_grammar (s : String) :
    (validateSubscribeTopic s = .ok () ↔ FilterGrammar s) ∧
      ∀ strippedPrefixes, validateSubscribeTopic s = .ok () →
        sharedFilterToActual s strippedPrefixes ≠ "" →
        validateSubscribeTopic (sharedFilterToActual s strippedPrefixes) = .ok () := by
  refine ⟨validateSubscribeTopic_iff, fun strippedPrefixes h hne => ?_⟩
  exact validateSubscribeTopic_iff.2 ((validateSubscribeTopic_iff.1 h).actual strippedPrefixes hne)

example : validateSubscribeTopic "$share/g/+/#" = .ok () := by decide

end Zmqtt
