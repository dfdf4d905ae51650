import FullText.Stemmer.Porter
import FullText.Text.Blank
import FullText.Text.Case
import Mathlib

/-!
# What lower case brings in

Turning a text into lower case brings in small letters and nothing that has a meaning of its own:
no white space, no hyphen, no star and no capital. This is read off the table of the lower-case
forms. The same holds of the stemmer, which only ever adds letters from `a` to `z`.

## Main definitions

* `Text.Small` : a character that lower case may bring in.
* `Porter.Keeps` : a word whose letters are those of another one, or small letters.

## Main results

* `Text.small_or_mem_lowercase` : the characters of a text in lower case.
* `Porter.small_or_mem_stem` : the characters of a stem.
-/

namespace FullText

namespace Text

/-- A character that lower case may bring in. -/
structure Small (c : Char) : Prop where
  /-- It is not white space. -/
  notBlank : isBlank c = false
  /-- It is not the hyphen. -/
  notHyphen : c ≠ '-'
  /-- It is not the star. -/
  notStar : c ≠ '*'
  /-- It is not an ASCII capital. -/
  notCapital : c.isUpper = false

theorem isUpper_iff {c : Char} : c.isUpper = true ↔ 0x41 ≤ c.toNat ∧ c.toNat ≤ 0x5A := by
  simp [Char.isUpper, UInt32.le_iff_toNat_le]

theorem isLower_iff {c : Char} : c.isLower = true ↔ 0x61 ≤ c.toNat ∧ c.toNat ≤ 0x7A := by
  simp [Char.isLower, UInt32.le_iff_toNat_le]

theorem isBlank_eq_false {c : Char} (h : ∀ r ∈ blankRanges, c.toNat < r.1 ∨ r.2 < c.toNat) :
    isBlank c = false := by
  refine Bool.eq_false_iff.2 fun hc => ?_
  obtain ⟨r, hr, hfirst, hlast⟩ := CodePointSet.exists_range_of_contains hc
  have := h r hr
  omega

theorem isBlank_of_isDigit {c : Char} (hc : c.isDigit = true) : isBlank c = false := by
  have hrange : 0x30 ≤ c.toNat ∧ c.toNat ≤ 0x39 := by
    simpa [Char.isDigit, UInt32.le_iff_toNat_le] using hc
  refine isBlank_eq_false fun r hr => ?_
  have hranges : ∀ r ∈ blankRanges, 0x39 < r.1 ∨ r.2 < 0x30 := by decide
  have := hranges r hr
  omega

/-- A character behind the ASCII capitals is one that lower case may bring in, unless it is white
space. -/
theorem Small.of_toNat {c : Char} (hc : 0x61 ≤ c.toNat)
    (hblank : ∀ r ∈ blankRanges, c.toNat < r.1 ∨ r.2 < c.toNat) : Small c where
  notBlank := isBlank_eq_false hblank
  notHyphen := by rintro rfl; exact absurd hc (by decide)
  notStar := by rintro rfl; exact absurd hc (by decide)
  notCapital := by
    refine Bool.eq_false_iff.2 fun h => ?_
    have := isUpper_iff.1 h
    omega

/-- The letters from `a` to `z` are among them. -/
theorem Small.of_isLower {c : Char} (hc : c.isLower = true) : Small c := by
  obtain ⟨hfirst, hlast⟩ := isLower_iff.1 hc
  refine .of_toNat hfirst fun r hr => ?_
  have hranges : ∀ r ∈ blankRanges, 0x7A < r.1 ∨ r.2 < 0x61 := by decide
  have := hranges r hr
  omega

/-! ### The table -/

/-- The lower-case form of the last capital of a run. -/
def CapitalRun.lastImage (run : CapitalRun) : Nat := run.image + (run.last - run.first)

/-- What all lower-case forms of a run are known by. -/
def CapitalRun.HasSmallImages (run : CapitalRun) : Prop :=
  0x61 ≤ run.image ∧
    (run.lastImage < 0xD800 ∨ 0xE000 ≤ run.image ∧ run.lastImage < 0x110000) ∧
    ∀ r ∈ blankRanges, run.lastImage < r.1 ∨ r.2 < run.image

instance (run : CapitalRun) : Decidable run.HasSmallImages :=
  inferInstanceAs (Decidable (_ ∧ _))

theorem hasSmallImages_of_mem : ∀ run ∈ capitalRuns, run.HasSmallImages := by
  decide +kernel

theorem exists_run_of_lowerCodePoint? {runs : List CapitalRun} {n l : Nat}
    (h : lowerCodePoint? runs n = some l) :
    ∃ run ∈ runs, run.image ≤ l ∧ l ≤ run.lastImage := by
  induction runs with
  | nil => cases h
  | cons run rest ih =>
    rw [lowerCodePoint?] at h
    have hrest (h : lowerCodePoint? rest n = some l) :
        ∃ run' ∈ run :: rest, run'.image ≤ l ∧ l ≤ run'.lastImage := by
      obtain ⟨run', hrun', himage⟩ := ih h
      exact ⟨run', List.mem_cons_of_mem _ hrun', himage⟩
    split at h
    · cases h
    · split at h
      · split at h
        · obtain rfl := Option.some.inj h
          refine ⟨run, List.mem_cons_self, ?_, ?_⟩
          · omega
          · rw [CapitalRun.lastImage]; omega
        · exact hrest h
      · exact hrest h

theorem small_of_lowerCodePoint? {n l : Nat} (h : lowerCodePoint? capitalRuns n = some l) :
    Small (Char.ofNat l) := by
  obtain ⟨run, hrun, hfirst, hlast⟩ := exists_run_of_lowerCodePoint? h
  obtain ⟨hletter, hvalid, hblank⟩ := hasSmallImages_of_mem run hrun
  have hchar : l.isValidChar := by
    rw [Nat.isValidChar]
    omega
  have htoNat : (Char.ofNat l).toNat = l := by
    rw [Char.ofNat, dif_pos hchar]
    rfl
  refine .of_toNat (by omega) fun r hr => ?_
  have := hblank r hr
  omega

/-- An ASCII capital is in the table. -/
theorem lowerCodePoint?_of_isUpper {c : Char} (hc : c.isUpper = true) :
    lowerCodePoint? capitalRuns c.toNat ≠ none := by
  obtain ⟨hfirst, hlast⟩ := isUpper_iff.1 hc
  have hrun : ¬ c.toNat < 0x41 := by omega
  rw [capitalRuns, lowerCodePoint?, if_neg hrun, if_pos hlast, if_pos (Nat.mod_one _)]
  exact Option.some_ne_none _

/-! ### Texts -/

/-- The lower-case form of a character is made of characters that lower case may bring in, or it is
the character itself. -/
theorem small_or_eq_of_mem_lowerChar {c d : Char} (hd : d ∈ lowerChar c) :
    Small d ∨ d = c ∧ c.isUpper = false := by
  rw [lowerChar] at hd
  split at hd
  · rcases List.mem_cons.1 hd with rfl | hd
    · exact Or.inl (.of_isLower rfl)
    · obtain rfl := List.mem_singleton.1 hd
      exact Or.inl (.of_toNat (by decide) (by decide))
  · split at hd
    · next l hl =>
      rw [List.mem_singleton.1 hd]
      exact Or.inl (small_of_lowerCodePoint? hl)
    · next hnone =>
      refine Or.inr ⟨List.mem_singleton.1 hd, Bool.eq_false_iff.2 fun hc => ?_⟩
      exact lowerCodePoint?_of_isUpper hc hnone

theorem small_or_mem_lowerFrom {before text : List Char} {d : Char}
    (hd : d ∈ lowerFrom before text) : Small d ∨ d ∈ text ∧ d.isUpper = false := by
  induction text generalizing before with
  | nil => cases hd
  | cons c rest ih =>
    rw [lowerFrom, List.mem_append] at hd
    rcases hd with hd | hd
    · split at hd
      · split at hd <;> rw [List.mem_singleton.1 hd] <;>
          exact Or.inl (.of_toNat (by decide) (by decide))
      · rcases small_or_eq_of_mem_lowerChar hd with hsmall | ⟨rfl, hc⟩
        · exact Or.inl hsmall
        · exact Or.inr ⟨List.mem_cons_self, hc⟩
    · exact (ih hd).imp_right fun ⟨hmem, hupper⟩ => ⟨List.mem_cons_of_mem _ hmem, hupper⟩

theorem isLower_toLower {c : Char} (hc : c.isUpper = true) : c.toLower.isLower = true := by
  rw [Char.isLower_toLower_eq_isAlpha, Char.isAlpha, hc, Bool.true_or]

theorem small_or_eq_toLower (c : Char) : Small c.toLower ∨ c.toLower = c ∧ c.isUpper = false := by
  by_cases hc : c.isUpper = true
  · exact Or.inl (.of_isLower (isLower_toLower hc))
  · exact Or.inr ⟨Char.toLower_eq_of_not_isUpper hc, Bool.eq_false_iff.2 hc⟩

/-- **The characters of a text in lower case** are those that lower case may bring in and those of
the text that are no capitals. -/
theorem small_or_mem_lowercase {s : String} {d : Char} (hd : d ∈ (lowercase s).toList) :
    Small d ∨ d ∈ s.toList ∧ d.isUpper = false := by
  rw [lowercase] at hd
  split at hd
  · rw [String.toList_ofList] at hd
    obtain ⟨c, hc, rfl⟩ := List.mem_map.1 hd
    rcases small_or_eq_toLower c with hsmall | ⟨heq, hupper⟩
    · exact Or.inl hsmall
    · rw [heq]
      exact Or.inr ⟨hc, hupper⟩
  · rw [String.toList_ofList] at hd
    exact small_or_mem_lowerFrom hd

end Text

/-! ### Stems -/

namespace Porter

/-- Every letter of a word is one of another word, or a letter from `a` to `z`. -/
def Keeps (word result : List Char) : Prop := ∀ c ∈ result, c ∈ word ∨ c.isLower = true

theorem Keeps.refl (word : List Char) : Keeps word word := fun _ hc => Or.inl hc

theorem Keeps.trans {u v w : List Char} (huv : Keeps u v) (hvw : Keeps v w) : Keeps u w := by
  intro c hc
  rcases hvw c hc with hc | hc
  · exact huv c hc
  · exact Or.inr hc

theorem Keeps.of_subset {word result : List Char} (h : result ⊆ word) : Keeps word result :=
  fun _ hc => Or.inl (h hc)

theorem Keeps.append {word stem letters : List Char} (hstem : Keeps word stem)
    (hletters : letters.all Char.isLower = true) : Keeps word (stem ++ letters) := by
  intro c hc
  rcases List.mem_append.1 hc with hc | hc
  · exact hstem c hc
  · exact Or.inr (List.all_eq_true.1 hletters c hc)

theorem keeps_of_before? {ending : String} {word stem : List Char}
    (h : before? ending word = some stem) : Keeps word stem := by
  rw [before?] at h
  split at h
  · rw [← Option.some.inj h]
    exact .of_subset (List.take_subset _ _)
  · cases h

theorem keeps_dropLast (word : List Char) : Keeps word word.dropLast :=
  .of_subset (List.dropLast_subset word)

theorem keeps_stepPlural (word : List Char) : Keeps word (stepPlural word) := by
  rw [stepPlural]
  split
  · next h => exact (keeps_of_before? h).append rfl
  · split
    · next h => exact (keeps_of_before? h).append rfl
    · split
      · exact .refl word
      · split
        · next h => exact keeps_of_before? h
        · exact .refl word

theorem keeps_mend (stem : List Char) : Keeps stem (mend stem) := by
  rw [mend]
  split
  · exact (Keeps.refl stem).append rfl
  · split
    · exact keeps_dropLast stem
    · split
      · exact (Keeps.refl stem).append rfl
      · exact .refl stem

theorem keeps_stepTense (word : List Char) : Keeps word (stepTense word) := by
  rw [stepTense]
  split
  · next h =>
    split
    · exact (keeps_of_before? h).append rfl
    · exact .refl word
  · split
    · next stem h =>
      have hstem : Keeps word stem := by
        rw [Option.orElse_eq_or, Option.or_eq_some_iff] at h
        rcases h with h | ⟨-, h⟩ <;> exact keeps_of_before? h
      split
      · exact hstem.trans (keeps_mend stem)
      · exact .refl word
    · exact .refl word

theorem keeps_stepFinalY (word : List Char) : Keeps word (stepFinalY word) := by
  rw [stepFinalY]
  split
  · next h =>
    split
    · exact (keeps_of_before? h).append rfl
    · exact .refl word
  · exact .refl word

/-- Rules whose replacements are made of small letters add nothing else. -/
theorem keeps_applyRules {rules : List Rule}
    (hrules : ∀ rule ∈ rules, rule.replacement.toList.all Char.isLower = true)
    (word : List Char) : Keeps word (applyRules rules word) := by
  rw [applyRules]
  split
  · next rule stem h =>
    obtain ⟨rule', hrule', hbefore⟩ := List.exists_of_findSome?_eq_some h
    obtain ⟨stem', hstem, heq⟩ := Option.map_eq_some_iff.1 hbefore
    obtain ⟨rfl, rfl⟩ := Prod.mk.inj heq
    split
    · exact (keeps_of_before? hstem).append (hrules _ hrule')
    · exact .refl word
  · exact .refl word

theorem keeps_stepWholeEnding (word : List Char) : Keeps word (stepWholeEnding word) := by
  rw [stepWholeEnding]
  split
  · next ending stem h =>
    obtain ⟨ending', -, hbefore⟩ := List.exists_of_findSome?_eq_some h
    obtain ⟨stem', hstem, heq⟩ := Option.map_eq_some_iff.1 hbefore
    obtain ⟨rfl, rfl⟩ := Prod.mk.inj heq
    split
    · exact keeps_of_before? hstem
    · exact .refl word
  · exact .refl word

theorem keeps_stepTidy (word : List Char) : Keeps word (stepTidy word) := by
  have he : Keeps word (dropFinalE word) := by
    rw [dropFinalE]
    split
    · next h =>
      split
      · exact keeps_of_before? h
      · exact .refl word
    · exact .refl word
  rw [stepTidy, dropDoubleL]
  split
  · exact he.trans (keeps_dropLast _)
  · exact he

/-- **All steps together add nothing but letters from `a` to `z`.** -/
theorem keeps_steps (word : List Char) : Keeps word (steps word) := by
  have hdouble : ∀ rule ∈ doubleEndings, rule.replacement.toList.all Char.isLower = true := by
    decide
  have hpart : ∀ rule ∈ partEndings, rule.replacement.toList.all Char.isLower = true := by decide
  exact (keeps_stepPlural word).trans <| (keeps_stepTense _).trans <| (keeps_stepFinalY _).trans <|
    (keeps_applyRules hdouble _).trans <| (keeps_applyRules hpart _).trans <|
    (keeps_stepWholeEnding _).trans (keeps_stepTidy _)

/-- The characters of a stem are those of the word, or such that lower case may bring in. -/
theorem small_or_mem_stem {word : String} {d : Char} (hd : d ∈ (stem word).toList) :
    Text.Small d ∨ d ∈ word.toList := by
  rw [stem] at hd
  split at hd
  · exact Or.inr hd
  · rw [String.toList_ofList] at hd
    rcases keeps_steps _ d hd with hd | hd
    · obtain ⟨c, hc, rfl⟩ := List.mem_map.1 hd
      rcases Text.small_or_eq_toLower c with hsmall | ⟨heq, -⟩
      · exact Or.inl hsmall
      · rw [heq]
        exact Or.inr hc
    · exact Or.inl (.of_isLower hd)

end Porter

end FullText
