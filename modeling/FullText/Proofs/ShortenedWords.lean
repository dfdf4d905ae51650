import FullText.Proofs.LowerCase

/-!
# What the stemmer leaves of a word

The stemmer cuts the end of a word and mends it. Each step leaves the beginning: it takes off no
more than an ending, and something stands before the ending because the step asks for a block or a
vowel there. Some steps put letters in the place of the ending, but never more than they take off.
Only the first step asks for nothing, and there it is the length of the word that keeps it from
vanishing. A word therefore keeps its first letter and becomes no longer, step after step.

## Main definitions

* `Porter.Trims` : a word is cut and mended at its end.
* `Porter.laterSteps`, `Porter.stages` : a word before, between and after the steps.
* `Porter.StageOf` : what all of these have in common with the word.

## Main results

* `Porter.trims_stepPlural`, `Porter.trims_of_mem_laterSteps` : every step trims its word.
* `Porter.stageOf_of_mem_stages` : **what a word is at every stage.**
* `Porter.stem_ne_nil` : a stem is not empty.
-/

namespace FullText

theorem Text.utf8Len_eq_length {text : List Char} (h : isAscii text = true) :
    String.utf8Len text = text.length := by
  induction text with
  | nil => rfl
  | cons c rest ih =>
    rw [isAscii, List.all_cons, Bool.and_eq_true, decide_eq_true_iff] at h
    have hsize : c.utf8Size = 1 := by
      rw [Char.utf8Size_eq_one_iff, UInt32.le_iff_toNat_le]
      exact Nat.le_of_lt_succ h.1
    rw [String.utf8Len_cons, ih h.2, hsize, List.length_cons]

theorem Text.utf8ByteSize_eq_length {word : String} (h : isAscii word.toList = true) :
    word.utf8ByteSize = word.toList.length := by
  rw [← utf8Len_eq_length h, ← String.utf8ByteSize_ofList, String.ofList_toList]

namespace Porter

section Words

variable {word stem letters : List Char} {ending : String}

/-! ### Words cut and mended -/

/-- A word is cut and mended at its end: the beginning is kept, and it becomes no longer. -/
structure Trims (word result : List Char) : Prop where
  /-- The first letter is kept, if there is one. -/
  head : result.head? = word.head?
  /-- The word becomes no longer. -/
  length_le : result.length ≤ word.length

theorem Trims.refl (word : List Char) : Trims word word := ⟨rfl, Nat.le_refl _⟩

theorem Trims.trans {u v w : List Char} (huv : Trims u v) (hvw : Trims v w) : Trims u w :=
  ⟨hvw.head.trans huv.head, Nat.le_trans hvw.length_le huv.length_le⟩

theorem Trims.ne_nil {result : List Char} (h : Trims word result) (hword : word ≠ []) :
    result ≠ [] := by
  rintro rfl
  exact hword (List.head?_eq_none_iff.1 h.head.symm)

/-- A word with an ending is made of what comes before the ending, and the ending. -/
theorem eq_append_of_before? (h : before? ending word = some stem) :
    word = stem ++ ending.toList := by
  rw [before?] at h
  split at h
  · next hsuffix =>
    obtain ⟨start, rfl⟩ := List.isSuffixOf_iff_suffix.1 hsuffix
    rw [← Option.some.inj h, ← String.length_toList, List.length_append, Nat.add_sub_cancel,
      List.take_left]
  · cases h

/-- An ending may be replaced by other letters if something comes before it, or if the letters start
as it does. -/
theorem trims_append (h : before? ending word = some stem)
    (hhead : stem ≠ [] ∨ letters.head? = ending.toList.head?)
    (hlength : letters.length ≤ ending.length) : Trims word (stem ++ letters) := by
  rw [eq_append_of_before? h]
  constructor
  · cases stem with
    | nil => exact hhead.resolve_left (fun hne => hne rfl)
    | cons c stem => rfl
  · rw [List.length_append, List.length_append, String.length_toList]
    omega

/-- An ending may be dropped if something comes before it. -/
theorem trims_stem (h : before? ending word = some stem) (hstem : stem ≠ []) : Trims word stem := by
  have hlength : ([] : List Char).length ≤ ending.length := Nat.zero_le _
  simpa using trims_append h (.inl hstem) hlength

/-- The last letter may be dropped if it is not the only one. -/
theorem trims_dropLast (h : 2 ≤ word.length) : Trims word word.dropLast := by
  constructor
  · cases word with
    | nil => rfl
    | cons c rest =>
      cases rest with
      | nil => exact absurd h (Nat.not_succ_le_self 1)
      | cons d rest => rfl
  · rw [List.length_dropLast]
    exact Nat.sub_le _ _

/-! ### Conditions on words -/

theorem ne_nil_of_measure (h : 0 < measure stem) : stem ≠ [] := by
  rintro rfl
  exact absurd h (by decide)

theorem ne_nil_of_hasVowel (h : hasVowel stem = true) : stem ≠ [] := by
  rintro rfl
  exact absurd h (by decide)

theorem length_consonantsFrom (afterConsonant : Bool) (word : List Char) :
    (consonantsFrom afterConsonant word).length = word.length := by
  induction word generalizing afterConsonant with
  | nil => rfl
  | cons c word ih => rw [consonantsFrom, List.length_cons, List.length_cons, ih]

/-- A double consonant takes two letters. -/
theorem two_le_of_endsWithDoubleConsonant (h : endsWithDoubleConsonant word = true) :
    2 ≤ word.length := by
  rw [endsWithDoubleConsonant] at h
  split at h
  · next hreverse _ =>
    rw [← List.length_reverse, hreverse]
    exact Nat.le_add_left _ _
  · cases h

/-- A short syllable takes three letters. -/
theorem three_le_of_endsWithShortSyllable (h : endsWithShortSyllable word = true) :
    3 ≤ word.length := by
  rw [endsWithShortSyllable] at h
  split at h
  · next hconsonants =>
    rw [← length_consonantsFrom false word, ← consonants, ← List.length_reverse, hconsonants]
    exact Nat.le_add_left _ _
  · cases h

/-- A word is not shorter than its ending. -/
theorem length_le_of_hasEnding (h : hasEnding ending word = true) :
    ending.length ≤ word.length := by
  rw [hasEnding, List.isSuffixOf_iff_suffix] at h
  rw [← String.length_toList]
  exact h.length_le

/-! ### Steps -/

/-- A word of two letters does not vanish with the ending of a plural. -/
theorem trims_stepPlural (h : 2 ≤ word.length) : Trims word (stepPlural word) := by
  rw [stepPlural]
  split
  · next hstem => exact trims_append hstem (.inr rfl) (by decide)
  · split
    · next hstem => exact trims_append hstem (.inr rfl) (by decide)
    · split
      · exact .refl word
      · split
        · next stem hstem =>
          refine trims_stem hstem ?_
          rintro rfl
          rw [eq_append_of_before? hstem] at h
          exact absurd h (by decide)
        · exact .refl word

/-- Mending puts back one letter at most. -/
theorem trims_mend (h : stem ≠ []) : Trims (stem ++ ['e']) (mend stem) := by
  have hstem : Trims (stem ++ ['e']) stem :=
    ⟨(List.head?_append_of_ne_nil _ h).symm, by rw [List.length_append]; exact Nat.le_add_right _ _⟩
  rw [mend]
  split
  · exact .refl _
  · split
    · next hdouble =>
      rw [Bool.and_eq_true] at hdouble
      exact hstem.trans (trims_dropLast (two_le_of_endsWithDoubleConsonant hdouble.1))
    · split
      · exact .refl _
      · exact hstem

theorem trims_stepTense (word : List Char) : Trims word (stepTense word) := by
  rw [stepTense]
  split
  · next hstem =>
    split
    · next hmeasure => exact trims_append hstem (.inl (ne_nil_of_measure hmeasure)) (by decide)
    · exact .refl word
  · split
    · next stem hstem =>
      split
      · next hvowel =>
        have hne := ne_nil_of_hasVowel hvowel
        have hcut : Trims word (stem ++ ['e']) := by
          rw [Option.orElse_eq_or, Option.or_eq_some_iff] at hstem
          rcases hstem with hstem | ⟨-, hstem⟩ <;> exact trims_append hstem (.inl hne) (by decide)
        exact hcut.trans (trims_mend hne)
      · exact .refl word
    · exact .refl word

theorem trims_stepFinalY (word : List Char) : Trims word (stepFinalY word) := by
  rw [stepFinalY]
  split
  · next hstem =>
    split
    · next hvowel => exact trims_append hstem (.inl (ne_nil_of_hasVowel hvowel)) (by decide)
    · exact .refl word
  · exact .refl word

/-- Rules whose replacements are not longer than their endings trim a word. -/
theorem trims_applyRules {rules : List Rule}
    (hrules : ∀ rule ∈ rules, rule.replacement.length ≤ rule.ending.length) (word : List Char) :
    Trims word (applyRules rules word) := by
  rw [applyRules]
  split
  · next rule stem h =>
    obtain ⟨rule', hrule', hbefore⟩ := List.exists_of_findSome?_eq_some h
    obtain ⟨stem', hstem, heq⟩ := Option.map_eq_some_iff.1 hbefore
    obtain ⟨rfl, rfl⟩ := Prod.mk.inj heq
    split
    · next hmeasure =>
      refine trims_append hstem (.inl (ne_nil_of_measure hmeasure)) ?_
      rw [String.length_toList]
      exact hrules _ hrule'
    · exact .refl word
  · exact .refl word

theorem trims_stepDoubleEnding (word : List Char) : Trims word (stepDoubleEnding word) :=
  trims_applyRules (by decide) word

theorem trims_stepPartEnding (word : List Char) : Trims word (stepPartEnding word) :=
  trims_applyRules (by decide) word

theorem trims_stepWholeEnding (word : List Char) : Trims word (stepWholeEnding word) := by
  rw [stepWholeEnding]
  split
  · next ending stem h =>
    obtain ⟨ending', -, hbefore⟩ := List.exists_of_findSome?_eq_some h
    obtain ⟨stem', hstem, heq⟩ := Option.map_eq_some_iff.1 hbefore
    obtain ⟨rfl, rfl⟩ := Prod.mk.inj heq
    split
    · next hmeasure =>
      rw [Bool.and_eq_true, decide_eq_true_iff] at hmeasure
      exact trims_stem hstem (ne_nil_of_measure (Nat.lt_of_succ_lt hmeasure.1))
    · exact .refl word
  · exact .refl word

theorem trims_dropFinalE (word : List Char) : Trims word (dropFinalE word) := by
  rw [dropFinalE]
  split
  · next hstem =>
    split
    · next hmeasure =>
      refine trims_stem hstem (ne_nil_of_measure ?_)
      simp only [Bool.or_eq_true, Bool.and_eq_true, decide_eq_true_iff] at hmeasure
      omega
    · exact .refl word
  · exact .refl word

theorem trims_dropDoubleL (word : List Char) : Trims word (dropDoubleL word) := by
  rw [dropDoubleL]
  split
  · next hdouble =>
    rw [Bool.and_eq_true] at hdouble
    exact trims_dropLast (length_le_of_hasEnding hdouble.1)
  · exact .refl word

theorem trims_stepTidy (word : List Char) : Trims word (stepTidy word) :=
  (trims_dropFinalE word).trans (trims_dropDoubleL _)

/-! ### Stages -/

/-- The steps after the one for plurals, in order. -/
def laterSteps : List (List Char → List Char) :=
  [stepTense, stepFinalY, stepDoubleEnding, stepPartEnding, stepWholeEnding, stepTidy]

/-- A word before the steps and after each of them. -/
def stages (word : List Char) : List (List Char) :=
  (stepPlural :: laterSteps).scanl (fun w step => step w) word

theorem getLast?_stages (word : List Char) : (stages word).getLast? = some (steps word) := by
  simp only [stages, laterSteps, List.getLast?_scanl, List.foldl_cons, List.foldl_nil, steps]

/-- What every step does to a word, has happened to it at every stage. -/
theorem forall_mem_scanl {α : Type} {R : α → α → Prop} (hrefl : ∀ a, R a a)
    (htrans : ∀ {a b c}, R a b → R b c → R a c) {fs : List (α → α)}
    (hstep : ∀ f ∈ fs, ∀ a, R a (f a)) (a : α) : ∀ b ∈ fs.scanl (fun a f => f a) a, R a b := by
  induction fs generalizing a with
  | nil =>
    intro b hb
    rw [List.mem_singleton.1 hb]
    exact hrefl a
  | cons f fs ih =>
    intro b hb
    rw [List.scanl_cons] at hb
    rcases List.mem_cons.1 hb with rfl | hb
    · exact hrefl _
    · exact htrans (hstep f List.mem_cons_self a)
        (ih (fun g hg => hstep g (List.mem_cons_of_mem _ hg)) _ b hb)

theorem trims_of_mem_laterSteps {step : List Char → List Char} (hstep : step ∈ laterSteps)
    (word : List Char) : Trims word (step word) := by
  simp only [laterSteps, List.mem_cons, List.not_mem_nil, or_false] at hstep
  rcases hstep with rfl | rfl | rfl | rfl | rfl | rfl
  · exact trims_stepTense word
  · exact trims_stepFinalY word
  · exact trims_stepDoubleEnding word
  · exact trims_stepPartEnding word
  · exact trims_stepWholeEnding word
  · exact trims_stepTidy word

/-- Only the first step needs a word of some length. -/
theorem trims_of_mem_stages (h : 2 ≤ word.length) : ∀ stage ∈ stages word, Trims word stage := by
  intro stage hstage
  rw [stages, List.scanl_cons] at hstage
  rcases List.mem_cons.1 hstage with rfl | hstage
  · exact .refl _
  · exact (trims_stepPlural h).trans (forall_mem_scanl .refl .trans
      (fun _ hstep => trims_of_mem_laterSteps hstep) _ _ hstage)

theorem keeps_of_mem_stages (word : List Char) : ∀ stage ∈ stages word, Keeps word stage := by
  refine forall_mem_scanl .refl .trans (fun step hstep word => ?_) word
  simp only [laterSteps, List.mem_cons, List.not_mem_nil, or_false] at hstep
  rcases hstep with rfl | rfl | rfl | rfl | rfl | rfl | rfl
  · exact keeps_stepPlural word
  · exact keeps_stepTense word
  · exact keeps_stepFinalY word
  · exact keeps_applyRules (by decide) word
  · exact keeps_applyRules (by decide) word
  · exact keeps_stepWholeEnding word
  · exact keeps_stepTidy word

/-! ### What a word is at every stage -/

/-- What a word is at a stage of stemming, compared with the word that was given. -/
structure StageOf (word stage : List Char) : Prop where
  /-- Something is left. -/
  nonempty : stage ≠ []
  /-- It is not longer than the word. -/
  length_le : stage.length ≤ word.length
  /-- It is made of ASCII characters, so that letters and bytes are numbered alike. -/
  ascii : Text.isAscii stage = true
  /-- It has no capitals. -/
  notCapital : ∀ c ∈ stage, c.isUpper = false
  /-- It starts with the first letter of the word, in lower case. -/
  head : stage.head? = word.head?.map Char.toLower

theorem toLower_ascii {c : Char} (h : c.toNat < 128) : c.toLower.toNat < 128 := by
  by_cases hc : c.isUpper = true
  · exact Nat.lt_of_le_of_lt (Text.isLower_iff.1 (Text.isLower_toLower hc)).2 (by decide)
  · rwa [Char.toLower_eq_of_not_isUpper hc]

/-- **What a word is at every stage,** if it has two or more letters, all of them ASCII. -/
theorem stageOf_of_mem_stages (hascii : Text.isAscii word = true) (hlength : 2 ≤ word.length) :
    ∀ stage ∈ stages (word.map Char.toLower), StageOf word stage := by
  intro stage hstage
  have hlower : 2 ≤ (word.map Char.toLower).length := by rwa [List.length_map]
  have htrims := trims_of_mem_stages hlower stage hstage
  have hletter (c : Char) (hc : c ∈ stage) : c.toNat < 128 ∧ c.isUpper = false := by
    rcases keeps_of_mem_stages _ stage hstage c hc with hmem | hc
    · obtain ⟨d, hd, rfl⟩ := List.mem_map.1 hmem
      rw [Text.isAscii, List.all_eq_true] at hascii
      exact ⟨toLower_ascii (of_decide_eq_true (hascii d hd)), Char.isUpper_toLower_eq_false d⟩
    · exact ⟨Nat.lt_of_le_of_lt (Text.isLower_iff.1 hc).2 (by decide),
        (Text.Small.of_isLower hc).notCapital⟩
  refine {
    nonempty := htrims.ne_nil (List.ne_nil_of_length_pos (Nat.lt_of_succ_lt hlower))
    length_le := ?_
    ascii := List.all_eq_true.2 fun c hc => decide_eq_true (hletter c hc).1
    notCapital := fun c hc => (hletter c hc).2
    head := ?_ }
  · simpa using htrims.length_le
  · rw [htrims.head, List.head?_map]

end Words

/-! ### Stems -/

/-- A stem is the last stage of a word that is stemmed. -/
theorem getLast?_stages_stem {word : String} (hascii : Text.isAscii word.toList = true)
    (hlength : 3 ≤ word.utf8ByteSize) :
    (stages (word.toList.map Char.toLower)).getLast? = some (stem word).toList := by
  rw [getLast?_stages, stem, if_neg (by simp [hascii]; omega), String.toList_ofList]

/-- Short words and words that are not ASCII are not stemmed. -/
theorem stem_eq_self {word : String}
    (h : ¬ (Text.isAscii word.toList = true ∧ 3 ≤ word.utf8ByteSize)) : stem word = word := by
  rw [stem, if_pos]
  rw [Bool.or_eq_true, decide_eq_true_iff, Bool.not_eq_true', Bool.eq_false_iff]
  rw [not_and] at h
  by_cases hascii : Text.isAscii word.toList = true
  · exact .inl (Nat.le_of_lt_succ (Nat.lt_of_not_le (h hascii)))
  · exact .inr hascii

theorem stageOf_stem {word : String} (hascii : Text.isAscii word.toList = true)
    (hlength : 3 ≤ word.utf8ByteSize) : StageOf word.toList (stem word).toList := by
  have hmem := List.mem_of_getLast? (getLast?_stages_stem hascii hlength)
  refine stageOf_of_mem_stages hascii ?_ _ hmem
  rw [← Text.utf8ByteSize_eq_length hascii]
  exact Nat.le_of_succ_le hlength

/-- **A stem is not empty.** -/
theorem stem_ne_nil {word : String} (h : word.toList ≠ []) : (stem word).toList ≠ [] := by
  by_cases hstemmed : Text.isAscii word.toList = true ∧ 3 ≤ word.utf8ByteSize
  · exact (stageOf_stem hstemmed.1 hstemmed.2).nonempty
  · rwa [stem_eq_self hstemmed]

end Porter

end FullText
