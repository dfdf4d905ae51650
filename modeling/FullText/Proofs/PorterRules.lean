import FullText.Proofs.PlainTokens
import Mathlib.Data.List.MinMax

/-!
# The rules of the Porter stemmer

The stemmer is described by rules: an ending, a condition on the stem before it, and what takes the
place of both. Of the rules of a step the one with the longest ending counts, in whatever order they
are listed, and where its condition does not hold the step does nothing. Letters are told apart by
their index: `y` is a consonant at the start of a word and after a vowel, and the measure of a stem
is the number of indices at which a vowel comes right before a consonant.

The steps look for the first ending that a word has. In tables where no ending is the end of a later
one the first is the longest. The measure is counted in one pass, as are the consonants.

## Main definitions

* `Porter.isConsonantAt`, `Porter.measureAt` : consonants and the measure, by index.
* `Porter.EndingRule`, `Porter.applyLongest` : rules, and a step that follows the longest one.
* `Porter.stemByRules` : all steps.

## Main results

* `Porter.measure_eq` : the measure is the number of vowels right before a consonant.
* `Porter.applyLongest_perm` : the order of the rules does not count.
* `Porter.applyLongest_eq_applyFirst` : in a table in order the first rule is the longest one.
* `Porter.stem_eq_stemByRules` : **the stemmer follows the rules.**
-/

namespace FullText.Porter

/-! ### Consonants -/

/-- Whether a letter is a vowel wherever it stands. -/
def isPlainVowel (c : Char) : Bool := c ∈ ['a', 'e', 'i', 'o', 'u']

/-- Whether the letter at an index is a consonant. The letter `y` is one at the start of a word and
after a vowel. -/
def isConsonantAt (word : List Char) : Nat → Bool
  | 0 => word[0]?.all fun c => !isPlainVowel c
  | i + 1 => word[i + 1]?.all fun c =>
    if c = 'y' then !isConsonantAt word i else !isPlainVowel c

variable {word : List Char}

theorem isConsonantAfter_eq (afterConsonant : Bool) (c : Char) :
    isConsonantAfter afterConsonant c =
      if c = 'y' then !afterConsonant else !isPlainVowel c := by
  rw [isConsonantAfter]
  by_cases hy : c = 'y'
  · subst hy
    rfl
  · simp [isPlainVowel, hy]

theorem getElem?_consonantsFrom_succ (afterConsonant : Bool) (word : List Char) (i : Nat) :
    (consonantsFrom afterConsonant word)[i + 1]? =
      (consonantsFrom afterConsonant word)[i]?.bind fun b =>
        word[i + 1]?.map (isConsonantAfter b) := by
  induction word generalizing afterConsonant i with
  | nil => rfl
  | cons c word ih =>
    cases i with
    | zero => cases word <;> rfl
    | succ i => exact ih _ i

theorem getElem?_consonants {i : Nat} (hi : i < word.length) :
    (consonants word)[i]? = some (isConsonantAt word i) := by
  induction i with
  | zero =>
    cases word with
    | nil => cases hi
    | cons c word =>
      show some (isConsonantAfter false c) = some (!isPlainVowel c)
      rw [isConsonantAfter_eq]
      split
      · next hy => rw [hy]; rfl
      · rfl
  | succ i ih =>
    rw [consonants, getElem?_consonantsFrom_succ, ← consonants, ih (Nat.lt_of_succ_lt hi),
      List.getElem?_eq_getElem hi, isConsonantAt, List.getElem?_eq_getElem hi]
    exact congrArg some (isConsonantAfter_eq _ _)

/-- The consonants of a word, by index. -/
theorem consonants_eq (word : List Char) :
    consonants word = (List.range word.length).map (isConsonantAt word) := by
  refine List.ext_getElem? fun i => ?_
  rcases Nat.lt_or_ge i word.length with hi | hi
  · simp [getElem?_consonants hi, hi]
  · rw [List.getElem?_eq_none (by rwa [consonants, length_consonantsFrom]),
      List.getElem?_eq_none (by simpa using hi)]

/-! ### Measures -/

/-- The number of indices at which a vowel is right before a consonant. -/
def measureAt (word : List Char) : Nat :=
  (List.range (word.length - 1)).countP fun i => !isConsonantAt word i && isConsonantAt word (i + 1)

/-- Whether there is a vowel at some index. -/
def hasVowelAt (word : List Char) : Bool :=
  (List.range word.length).any fun i => !isConsonantAt word i

/-- Whether the last two letters are one and the same consonant. -/
def endsTwice (word : List Char) : Bool :=
  2 ≤ word.length && word[word.length - 1]? = word[word.length - 2]? &&
    isConsonantAt word (word.length - 1)

/-- Whether the last three letters are a consonant, a vowel and a consonant other than `w`, `x` and
`y`. -/
def endsShort (word : List Char) : Bool :=
  3 ≤ word.length && isConsonantAt word (word.length - 3) &&
    !isConsonantAt word (word.length - 2) && isConsonantAt word (word.length - 1) &&
      word.getLast? ∉ [some 'w', some 'x', some 'y']

/-- A block ends at a consonant that comes right after a vowel. -/
theorem blocks_eq_countP (afterVowel : Bool) (bs : List Bool) :
    blocks afterVowel bs = (List.range bs.length).countP fun i =>
      ((!afterVowel) :: bs)[i]? = some false && bs[i]? = some true := by
  induction bs generalizing afterVowel with
  | nil => rfl
  | cons b bs ih =>
    rw [List.length_cons, List.range_succ_eq_map, List.countP_cons, List.countP_map]
    cases b with
    | true => cases afterVowel <;> simp [blocks, ih, Function.comp_def, Nat.add_comm]
    | false => simp [blocks, ih, Function.comp_def]

/-- **The measure is the number of vowels right before a consonant.** -/
theorem measure_eq (word : List Char) : measure word = measureAt word := by
  rw [measure, blocks_eq_countP, consonants, length_consonantsFrom, ← consonants, measureAt]
  cases hlength : word.length with
  | zero => rfl
  | succ n =>
    rw [List.range_succ_eq_map, List.countP_cons_of_neg (by simp), List.countP_map,
      Nat.add_sub_cancel]
    refine List.countP_congr fun i hi => ?_
    have hi := List.mem_range.1 hi
    simp [getElem?_consonants (show i < word.length by omega),
      getElem?_consonants (show i + 1 < word.length by omega)]

theorem hasVowel_eq (word : List Char) : hasVowel word = hasVowelAt word := by
  rw [hasVowel, consonants_eq, List.any_map]
  rfl

theorem endsWithDoubleConsonant_eq (word : List Char) :
    endsWithDoubleConsonant word = endsTwice word := by
  rw [endsWithDoubleConsonant, endsTwice, consonants_eq]
  rcases hreverse : word.reverse with _ | ⟨a, _ | ⟨b, front⟩⟩ <;>
    rw [List.reverse_eq_iff] at hreverse <;> subst hreverse
  · rfl
  · rfl
  · simp [List.range_succ]

theorem endsWithShortSyllable_eq (word : List Char) :
    endsWithShortSyllable word = endsShort word := by
  rw [endsWithShortSyllable, endsShort, consonants_eq]
  rcases hreverse : word.reverse with _ | ⟨a, _ | ⟨b, _ | ⟨c, front⟩⟩⟩ <;>
    rw [List.reverse_eq_iff] at hreverse <;> subst hreverse
  · rfl
  · simp [List.range_succ]
  · simp [List.range_succ]
  · simp only [List.length_reverse, List.length_cons, List.range_succ, List.map_append,
      List.map_singleton, List.reverse_append, List.reverse_singleton, List.singleton_append]
    generalize isConsonantAt (a :: b :: c :: front).reverse = consonant
    have hlast : (a :: b :: c :: front).reverse.getLast? = some a := by simp
    rw [hlast]
    cases ha : consonant front.length <;> cases hb : consonant (front.length + 1) <;>
      cases hc : consonant (front.length + 1 + 1) <;> simp [ha, hb, hc, Bool.and_assoc]

/-! ### Rules -/

/-- An ending, with the stems before which a step replaces it, and what it then makes of the
stem. -/
structure EndingRule where
  /-- The ending. -/
  ending : String
  /-- The condition on what comes before the ending. -/
  condition : List Char → Bool
  /-- The word that the rule makes of it. -/
  result : List Char → List Char

/-- The rules whose ending a word has. -/
def matching (rules : List EndingRule) (word : List Char) : List EndingRule :=
  rules.filter fun rule => hasEnding rule.ending word

/-- The rule with the longest ending of those that a word has. -/
def longestRule? (rules : List EndingRule) (word : List Char) : Option EndingRule :=
  (matching rules word).argmax fun rule => rule.ending.length

/-- Follows the rule with the longest ending, if its condition holds. -/
def applyLongest (rules : List EndingRule) (word : List Char) : List Char :=
  match longestRule? rules word with
  | some rule =>
    let stem := word.take (word.length - rule.ending.length)
    if rule.condition stem then rule.result stem else word
  | none => word

/-- Follows the first rule whose ending a word has, if its condition holds. -/
def applyFirst : List EndingRule → List Char → List Char
  | [], word => word
  | rule :: rules, word =>
    match before? rule.ending word with
    | some stem => if rule.condition stem then rule.result stem else word
    | none => applyFirst rules word

variable {rules rules' : List EndingRule} {rule : EndingRule}

theorem mem_matching :
    rule ∈ matching rules word ↔ rule ∈ rules ∧ hasEnding rule.ending word = true :=
  List.mem_filter

theorem before?_of_hasEnding {ending : String} (h : hasEnding ending word = true) :
    before? ending word = some (word.take (word.length - ending.length)) :=
  if_pos h

theorem before?_eq_none {ending : String} (h : ¬ hasEnding ending word = true) :
    before? ending word = none :=
  if_neg h

/-- Endings of one word that are of one length are the same. -/
theorem eq_of_hasEnding {ending ending' : String} (h : hasEnding ending word = true)
    (h' : hasEnding ending' word = true) (hlength : ending.length = ending'.length) :
    ending = ending' := by
  rw [hasEnding, List.isSuffixOf_iff_suffix] at h h'
  rw [← String.length_toList, ← String.length_toList] at hlength
  exact String.toList_inj.1 ((List.suffix_of_suffix_length_le h h' hlength.le).eq_of_length hlength)

theorem length_le_of_longestRule? (h : longestRule? rules word = some rule)
    {r : EndingRule} (hr : r ∈ matching rules word) : r.ending.length ≤ rule.ending.length :=
  List.le_of_mem_argmax (f := fun rule => rule.ending.length) hr h

/-- **The rule that counts**, wherever it stands in the table. -/
theorem longestRule?_eq_some_iff (hdistinct : (rules.map (·.ending)).Nodup) :
    longestRule? rules word = some rule ↔ rule ∈ matching rules word ∧
      ∀ r ∈ matching rules word, r.ending.length ≤ rule.ending.length := by
  constructor
  · intro h
    exact ⟨List.argmax_mem h, fun r hr => length_le_of_longestRule? h hr⟩
  · rintro ⟨hrule, hmax⟩
    cases hlongest : longestRule? rules word with
    | none => rw [List.argmax_eq_none.1 hlongest] at hrule; cases hrule
    | some r =>
      have hr := List.argmax_mem hlongest
      have hlength := (hmax r hr).antisymm (length_le_of_longestRule? hlongest hrule)
      have hending := eq_of_hasEnding (mem_matching.1 hr).2 (mem_matching.1 hrule).2 hlength
      rw [List.inj_on_of_nodup_map hdistinct (mem_matching.1 hr).1 (mem_matching.1 hrule).1 hending]

/-- **The order of the rules does not count.** -/
theorem applyLongest_perm (hdistinct : (rules.map (·.ending)).Nodup) (h : rules'.Perm rules)
    (word : List Char) : applyLongest rules' word = applyLongest rules word := by
  have hmem (r : EndingRule) : r ∈ matching rules' word ↔ r ∈ matching rules word :=
    (h.filter _).mem_iff
  have hlongest : longestRule? rules' word = longestRule? rules word := by
    refine Option.ext fun rule => ?_
    rw [longestRule?_eq_some_iff hdistinct,
      longestRule?_eq_some_iff ((h.map _).nodup_iff.2 hdistinct)]
    simp only [hmem]
  rw [applyLongest, applyLongest, hlongest]

/-- A table in order: no ending is the end of a later one. -/
def InOrder (rules : List EndingRule) : Prop :=
  rules.Pairwise fun r s => ¬ r.ending.toList <:+ s.ending.toList

instance : DecidablePred InOrder := fun rules =>
  inferInstanceAs (Decidable (rules.Pairwise fun r s => ¬ r.ending.toList <:+ s.ending.toList))

theorem InOrder.nodup (h : InOrder rules) : (rules.map (·.ending)).Nodup := by
  refine List.pairwise_map.2 (h.imp fun hnot heq => hnot ?_)
  rw [heq]

/-- **In a table in order the first rule is the longest one.** -/
theorem applyLongest_eq_applyFirst (h : InOrder rules) (word : List Char) :
    applyLongest rules word = applyFirst rules word := by
  induction rules with
  | nil => rfl
  | cons rule rules ih =>
    obtain ⟨hlater, horder⟩ := List.pairwise_cons.1 h
    by_cases hending : hasEnding rule.ending word = true
    · have hlongest : longestRule? (rule :: rules) word = some rule := by
        refine (longestRule?_eq_some_iff h.nodup).2
          ⟨mem_matching.2 ⟨List.mem_cons_self, hending⟩, fun r hr => ?_⟩
        obtain ⟨hr, hending'⟩ := mem_matching.1 hr
        rcases List.mem_cons.1 hr with rfl | hr
        · exact le_rfl
        · rw [hasEnding, List.isSuffixOf_iff_suffix] at hending hending'
          rw [← String.length_toList, ← String.length_toList]
          exact ((List.suffix_or_suffix_of_suffix hending hending').resolve_left
            (hlater r hr)).length_le
      rw [applyLongest, hlongest, applyFirst, before?_of_hasEnding hending]
    · have hmatching : matching (rule :: rules) word = matching rules word :=
        List.filter_cons_of_neg hending
      rw [applyFirst, before?_eq_none hending, ← ih horder, applyLongest, applyLongest,
        longestRule?, hmatching, longestRule?]

/-! ### The rules of the steps -/

/-- The rules for the endings of plurals. -/
def pluralRules : List EndingRule := [
  ⟨"sses", fun _ => true, (· ++ ['s', 's'])⟩, ⟨"ies", fun _ => true, (· ++ ['i'])⟩,
  ⟨"ss", fun _ => true, (· ++ ['s', 's'])⟩, ⟨"s", fun _ => true, id⟩]

/-- Repairs a stem that has lost `ed` or `ing`. -/
def repair (stem : List Char) : List Char :=
  if hasEnding "at" stem || hasEnding "bl" stem || hasEnding "iz" stem then stem ++ ['e']
  else if endsTwice stem && !(hasEnding "l" stem || hasEnding "s" stem || hasEnding "z" stem) then
    stem.dropLast
  else if measureAt stem = 1 && endsShort stem then stem ++ ['e']
  else stem

/-- The rules for the endings of past tenses and participles. -/
def tenseRules : List EndingRule := [
  ⟨"eed", fun stem => 0 < measureAt stem, (· ++ ['e', 'e'])⟩, ⟨"ed", hasVowelAt, repair⟩,
  ⟨"ing", hasVowelAt, repair⟩]

/-- The rule for a final `y`. -/
def finalYRules : List EndingRule := [⟨"y", hasVowelAt, (· ++ ['i'])⟩]

/-- The rule that replaces an ending after a block. -/
def Rule.toEndingRule (rule : Rule) : EndingRule where
  ending := rule.ending
  condition stem := 0 < measureAt stem
  result stem := stem ++ rule.replacement.toList

/-- The rule that drops an ending after two blocks. The ending `ion` is dropped only after `s` and
`t`. -/
def droppingRule (ending : String) : EndingRule where
  ending := ending
  condition stem :=
    1 < measureAt stem && (ending ≠ "ion" || hasEnding "s" stem || hasEnding "t" stem)
  result := id

/-- The rule for a final `e`. -/
def finalERules : List EndingRule := [
  ⟨"e", fun stem => 1 < measureAt stem || (measureAt stem = 1 && !endsShort stem), id⟩]

/-- The rule for a final `ll`. Its condition is on the whole word. -/
def doubleLRules : List EndingRule := [
  ⟨"ll", fun stem => 1 < measureAt (stem ++ ['l', 'l']), (· ++ ['l'])⟩]

/-- All steps, given the tables of the three steps that have long ones. -/
def stemByRules (doubles parts : List Rule) (wholes : List String) (word : List Char) : List Char :=
  let singular := applyLongest pluralRules word
  let present := applyLongest finalYRules (applyLongest tenseRules singular)
  let reduced := applyLongest (parts.map Rule.toEndingRule)
    (applyLongest (doubles.map Rule.toEndingRule) present)
  applyLongest doubleLRules (applyLongest finalERules
    (applyLongest (wholes.map droppingRule) reduced))

/-! ### The steps follow the rules -/

theorem inOrder_doubleEndings : InOrder (doubleEndings.map Rule.toEndingRule) := by
  decide

theorem inOrder_partEndings : InOrder (partEndings.map Rule.toEndingRule) := by
  decide

theorem inOrder_wholeEndings : InOrder (wholeEndings.map droppingRule) := by
  decide

theorem mend_eq (stem : List Char) : mend stem = repair stem := by
  rw [mend, endsWithDoubleConsonant_eq, endsWithShortSyllable_eq, measure_eq]
  rfl

theorem stepPlural_eq (word : List Char) : stepPlural word = applyLongest pluralRules word := by
  rw [applyLongest_eq_applyFirst (by decide)]
  cases hsses : before? "sses" word with
  | some stem => simp [stepPlural, pluralRules, applyFirst, hsses]
  | none =>
    cases hies : before? "ies" word with
    | some stem => simp [stepPlural, pluralRules, applyFirst, hsses, hies]
    | none =>
      by_cases hss : hasEnding "ss" word = true
      · have hbefore := before?_of_hasEnding hss
        have hword := eq_append_of_before? hbefore
        simpa [stepPlural, pluralRules, applyFirst, hsses, hies, hss, hbefore] using hword
      · cases hs : before? "s" word <;>
          simp [stepPlural, pluralRules, applyFirst, hsses, hies, hss, before?_eq_none hss, hs]

theorem stepTense_eq (word : List Char) : stepTense word = applyLongest tenseRules word := by
  rw [applyLongest_eq_applyFirst (by decide)]
  cases heed : before? "eed" word with
  | some stem => simp [stepTense, tenseRules, applyFirst, heed, measure_eq]
  | none =>
    cases hed : before? "ed" word with
    | some stem => simp [stepTense, tenseRules, applyFirst, heed, hed, hasVowel_eq, mend_eq]
    | none =>
      cases hing : before? "ing" word <;>
        simp [stepTense, tenseRules, applyFirst, heed, hed, hing, hasVowel_eq, mend_eq]

theorem stepFinalY_eq (word : List Char) : stepFinalY word = applyLongest finalYRules word := by
  rw [applyLongest_eq_applyFirst (by decide)]
  cases hy : before? "y" word <;> simp [stepFinalY, finalYRules, applyFirst, hy, hasVowel_eq]

/-- The first rule of a table is found by looking for its ending. -/
theorem applyFirst_map {α : Type} (f : α → EndingRule) (as : List α) (word : List Char) :
    applyFirst (as.map f) word =
      match as.findSome? fun a => (before? (f a).ending word).map fun stem => (a, stem) with
      | some (a, stem) => if (f a).condition stem then (f a).result stem else word
      | none => word := by
  induction as with
  | nil => rfl
  | cons a as ih =>
    rw [List.map_cons, applyFirst, List.findSome?_cons, ih]
    cases before? (f a).ending word <;> rfl

theorem applyRules_eq {rules : List Rule} (h : InOrder (rules.map Rule.toEndingRule))
    (word : List Char) :
    applyRules rules word = applyLongest (rules.map Rule.toEndingRule) word := by
  rw [applyLongest_eq_applyFirst h, applyFirst_map, applyRules]
  have hfind : findRule? rules word = rules.findSome? fun rule =>
      (before? rule.toEndingRule.ending word).map fun stem => (rule, stem) := rfl
  rw [← hfind]
  cases findRule? rules word <;> simp [Rule.toEndingRule, measure_eq]

theorem stepWholeEnding_eq (word : List Char) :
    stepWholeEnding word = applyLongest (wholeEndings.map droppingRule) word := by
  rw [applyLongest_eq_applyFirst inOrder_wholeEndings, applyFirst_map, stepWholeEnding]
  have hfind : findEnding? wholeEndings word = wholeEndings.findSome? fun ending =>
      (before? (droppingRule ending).ending word).map fun stem => (ending, stem) := rfl
  rw [← hfind]
  cases findEnding? wholeEndings word <;> simp [droppingRule, measure_eq]

theorem dropFinalE_eq (word : List Char) : dropFinalE word = applyLongest finalERules word := by
  rw [applyLongest_eq_applyFirst (by decide)]
  cases he : before? "e" word <;>
    simp [dropFinalE, finalERules, applyFirst, he, measure_eq, endsWithShortSyllable_eq]

theorem dropDoubleL_eq (word : List Char) : dropDoubleL word = applyLongest doubleLRules word := by
  rw [applyLongest_eq_applyFirst (by decide), dropDoubleL, measure_eq]
  simp only [doubleLRules, applyFirst]
  by_cases hll : hasEnding "ll" word = true
  · have hword := eq_append_of_before? (before?_of_hasEnding hll)
    rw [before?_of_hasEnding hll]
    generalize word.take (word.length - "ll".length) = stem at hword
    subst hword
    have hdrop : (stem ++ "ll".toList).dropLast = stem ++ ['l'] := by
      rw [show "ll".toList = ['l', 'l'] from rfl, List.dropLast_append_cons]
      rfl
    rw [hll, hdrop, Bool.true_and]
    rfl
  · simp [before?_eq_none hll, hll]

/-- **The steps follow the rules**, in whatever order the long tables are given. -/
theorem steps_eq_stemByRules {doubles parts : List Rule} {wholes : List String}
    (hdoubles : doubles.Perm doubleEndings) (hparts : parts.Perm partEndings)
    (hwholes : wholes.Perm wholeEndings) (word : List Char) :
    steps word = stemByRules doubles parts wholes word := by
  rw [steps, stepTidy, stepDoubleEnding, stepPartEnding, dropDoubleL_eq, dropFinalE_eq,
    stepWholeEnding_eq, applyRules_eq inOrder_partEndings, applyRules_eq inOrder_doubleEndings,
    stepFinalY_eq, stepTense_eq, stepPlural_eq, stemByRules,
    applyLongest_perm inOrder_doubleEndings.nodup (hdoubles.map _),
    applyLongest_perm inOrder_partEndings.nodup (hparts.map _),
    applyLongest_perm inOrder_wholeEndings.nodup (hwholes.map _)]

/-- **The stemmer follows the rules.** -/
theorem stem_eq_stemByRules {word : String} (hascii : Text.isAscii word.toList = true)
    (hlength : 3 ≤ word.utf8ByteSize) {doubles parts : List Rule} {wholes : List String}
    (hdoubles : doubles.Perm doubleEndings) (hparts : parts.Perm partEndings)
    (hwholes : wholes.Perm wholeEndings) :
    stem word =
      String.ofList (stemByRules doubles parts wholes (word.toList.map Char.toLower)) := by
  rw [stem, if_neg (by simp [hascii]; omega), steps_eq_stemByRules hdoubles hparts hwholes]

/-- With the tables read backwards. -/
theorem stem_eq_stemByRules_reverse :
    stem "Generalizations" = "gener" ∧
      stem "Generalizations" = String.ofList (stemByRules doubleEndings.reverse partEndings.reverse
        wholeEndings.reverse ("Generalizations".toList.map Char.toLower)) :=
  ⟨by decide +kernel, stem_eq_stemByRules (by decide) (by decide) (List.reverse_perm _)
    (List.reverse_perm _) (List.reverse_perm _)⟩

end FullText.Porter
