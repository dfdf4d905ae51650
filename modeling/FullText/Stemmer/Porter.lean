import FullText.Stemmer
import FullText.Text.Case

/-!
# The Porter stemmer

The stemmer of Porter for English words. A word passes through seven steps. Each step looks at the
ending of the word and replaces it by another one, or drops it, if what comes before the ending is
long enough. Length is measured in blocks: a run of vowels followed by a run of consonants. The
letter `y` is a consonant at the start of a word and after a vowel.

Only words of three or more characters, all of them ASCII, are stemmed.

## Main definitions

* `Porter.consonants` : which letters of a word are consonants.
* `Porter.measure` : the number of blocks of a word.
* `Porter.stepPlural`, … : the steps.
* `Porter.stem`, `Stemmer.porter` : the stemmer.
-/

namespace FullText.Porter

/-! ### Measures of a word -/

/-- Whether a letter is a consonant, given whether the letter before it is one. At the start of a
word there is no consonant before. -/
def isConsonantAfter (afterConsonant : Bool) (c : Char) : Bool :=
  if c = 'a' ∨ c = 'e' ∨ c = 'i' ∨ c = 'o' ∨ c = 'u' then false
  else if c = 'y' then !afterConsonant
  else true

/-- Which letters are consonants, given whether the letter before the first one is one. -/
def consonantsFrom (afterConsonant : Bool) : List Char → List Bool
  | [] => []
  | c :: cs =>
    isConsonantAfter afterConsonant c :: consonantsFrom (isConsonantAfter afterConsonant c) cs

/-- Which letters of a word are consonants. -/
def consonants (word : List Char) : List Bool := consonantsFrom false word

/-- The number of times that a consonant follows a vowel, given whether the letter before is a
vowel. -/
def blocks (afterVowel : Bool) : List Bool → Nat
  | [] => 0
  | true :: rest => (if afterVowel then 1 else 0) + blocks false rest
  | false :: rest => blocks true rest

/-- The number of blocks of vowels and consonants of a word. -/
def measure (word : List Char) : Nat := blocks false (consonants word)

/-- Whether a word has a vowel. -/
def hasVowel (word : List Char) : Bool := (consonants word).any (!·)

/-- Whether a word ends with the same consonant twice. -/
def endsWithDoubleConsonant (word : List Char) : Bool :=
  match word.reverse, (consonants word).reverse with
  | a :: b :: _, consonant :: _ => a = b && consonant
  | _, _ => false

/-- Whether a word ends with a consonant, a vowel and another consonant that is not `w`, `x` or
`y`. -/
def endsWithShortSyllable (word : List Char) : Bool :=
  match word.reverse, (consonants word).reverse with
  | c :: _, true :: false :: true :: _ => c ≠ 'w' && c ≠ 'x' && c ≠ 'y'
  | _, _ => false

/-! ### Endings -/

/-- What comes before an ending, if the word has it. -/
def before? (ending : String) (word : List Char) : Option (List Char) :=
  if ending.toList.isSuffixOf word then some (word.take (word.length - ending.length)) else none

/-- Whether a word has an ending. -/
def hasEnding (ending : String) (word : List Char) : Bool := ending.toList.isSuffixOf word

/-- The first ending of a list that a word has, with what comes before it. -/
def findEnding? (endings : List String) (word : List Char) : Option (String × List Char) :=
  endings.findSome? fun ending => (before? ending word).map fun stem => (ending, stem)

/-- An ending with its replacement. -/
structure Rule where
  /-- The ending. -/
  ending : String
  /-- What it is replaced by. -/
  replacement : String

/-- The first rule of a list whose ending a word has, with what comes before the ending. -/
def findRule? (rules : List Rule) (word : List Char) : Option (Rule × List Char) :=
  rules.findSome? fun rule => (before? rule.ending word).map fun stem => (rule, stem)

/-- Applies the rule whose ending the word has, if there is a block before the ending. -/
def applyRules (rules : List Rule) (word : List Char) : List Char :=
  match findRule? rules word with
  | some (rule, stem) => if 0 < measure stem then stem ++ rule.replacement.toList else word
  | none => word

/-! ### Steps -/

/-- Takes off the ending of a plural. -/
def stepPlural (word : List Char) : List Char :=
  match before? "sses" word with
  | some stem => stem ++ ['s', 's']
  | none =>
    match before? "ies" word with
    | some stem => stem ++ ['i']
    | none =>
      if hasEnding "ss" word then word
      else match before? "s" word with
        | some stem => stem
        | none => word

/-- Mends a word that has lost `ed` or `ing`: an `e` is put back, or one of two equal consonants is
taken off. -/
def mend (stem : List Char) : List Char :=
  if hasEnding "at" stem || hasEnding "bl" stem || hasEnding "iz" stem then stem ++ ['e']
  else if endsWithDoubleConsonant stem &&
      !(hasEnding "l" stem || hasEnding "s" stem || hasEnding "z" stem) then stem.dropLast
  else if measure stem = 1 && endsWithShortSyllable stem then stem ++ ['e']
  else stem

/-- Takes off the ending of a past tense or participle. -/
def stepTense (word : List Char) : List Char :=
  match before? "eed" word with
  | some stem => if 0 < measure stem then stem ++ ['e', 'e'] else word
  | none =>
    match (before? "ed" word).orElse fun _ => before? "ing" word with
    | some stem => if hasVowel stem then mend stem else word
    | none => word

/-- Turns a final `y` into `i`. -/
def stepFinalY (word : List Char) : List Char :=
  match before? "y" word with
  | some stem => if hasVowel stem then stem ++ ['i'] else word
  | none => word

/-- The endings that are made of two. -/
def doubleEndings : List Rule := [
  ⟨"ational", "ate"⟩, ⟨"tional", "tion"⟩, ⟨"enci", "ence"⟩, ⟨"anci", "ance"⟩, ⟨"izer", "ize"⟩,
  ⟨"abli", "able"⟩, ⟨"alli", "al"⟩, ⟨"entli", "ent"⟩, ⟨"eli", "e"⟩, ⟨"ousli", "ous"⟩,
  ⟨"ization", "ize"⟩, ⟨"ation", "ate"⟩, ⟨"ator", "ate"⟩, ⟨"alism", "al"⟩, ⟨"iveness", "ive"⟩,
  ⟨"fulness", "ful"⟩, ⟨"ousness", "ous"⟩, ⟨"aliti", "al"⟩, ⟨"iviti", "ive"⟩, ⟨"biliti", "ble"⟩]

/-- Shortens an ending that is made of two. -/
def stepDoubleEnding (word : List Char) : List Char := applyRules doubleEndings word

/-- The endings of adjectives and nouns that lose a part. -/
def partEndings : List Rule := [
  ⟨"icate", "ic"⟩, ⟨"ative", ""⟩, ⟨"alize", "al"⟩, ⟨"iciti", "ic"⟩, ⟨"ical", "ic"⟩, ⟨"ful", ""⟩,
  ⟨"ness", ""⟩]

/-- Shortens an ending of an adjective or a noun. -/
def stepPartEnding (word : List Char) : List Char := applyRules partEndings word

/-- The endings that are dropped as a whole. An ending comes before those that it ends with. -/
def wholeEndings : List String := [
  "ement", "ment", "ance", "ence", "able", "ible", "ant", "ent", "ion", "ism", "ate", "iti", "ous",
  "ive", "ize", "al", "er", "ic", "ou"]

/-- Drops an ending as a whole, if two blocks remain. The ending `ion` is dropped only after `s`
and `t`. -/
def stepWholeEnding (word : List Char) : List Char :=
  match findEnding? wholeEndings word with
  | some (ending, stem) =>
    if 1 < measure stem && (ending ≠ "ion" || hasEnding "s" stem || hasEnding "t" stem) then stem
    else word
  | none => word

/-- Drops a final `e`. -/
def dropFinalE (word : List Char) : List Char :=
  match before? "e" word with
  | some stem =>
    if 1 < measure stem || (measure stem = 1 && !endsWithShortSyllable stem) then stem else word
  | none => word

/-- Turns a final `ll` into `l`. -/
def dropDoubleL (word : List Char) : List Char :=
  if hasEnding "ll" word && decide (1 < measure word) then word.dropLast else word

/-- Tidies up the end of the word. -/
def stepTidy (word : List Char) : List Char := dropDoubleL (dropFinalE word)

/-! ### The stemmer -/

/-- All steps, in order. -/
def steps (word : List Char) : List Char :=
  stepTidy (stepWholeEnding (stepPartEnding (stepDoubleEnding
    (stepFinalY (stepTense (stepPlural word))))))

/-- The stem of a word. -/
def stem (word : String) : String :=
  if word.utf8ByteSize ≤ 2 || !Text.isAscii word.toList then word
  else String.ofList (steps (word.toList.map Char.toLower))

end FullText.Porter

namespace FullText

/-- The stemmer of Porter. -/
def Stemmer.porter : Stemmer := ⟨"porter", Porter.stem⟩

end FullText
