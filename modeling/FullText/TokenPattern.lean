import FullText.Error
import FullText.Text.Age
import FullText.Text.Blank
import FullText.Text.Numeric
import FullText.Text.WordCharacter

/-!
# Token patterns

A token pattern describes the tokens of a text or the separators between them. It is a class of
characters with a quantifier: exactly one character, one or more, or any number. A class is a
single character, a named class such as `\w`, a point for any character but a line feed, or a
bracket expression.

This is a small part of the notation of regular expressions. Sequences, alternatives, groups,
anchors, flags, other quantifiers and other named classes are not read: every pattern that is not
one class with one quantifier is called malformed here, also if it is a regular expression with a
meaning. Results that do not depend on the notation are shown for any way to cut texts into
segments.

A pattern cuts a text into segments, matches and the gaps between them. Matches are as long as
possible. A pattern that matches the empty text does so wherever it matches nothing longer, except
right after a match.

## Main definitions

* `CharClass`, `Quantifier`, `TokenPattern` : patterns.
* `TokenPattern.parse` : reads the notation of a class with a quantifier, and of nothing else.
* `TokenPattern.segments` : the matches and gaps of a text.

## Main results

* `TokenPattern.flatten_segments` : the segments make up the text.
-/

namespace FullText

/-! ### Classes of characters -/

/-- An item of a class of characters. -/
inductive CharClass.Item
  /-- A range of characters, both ends included. -/
  | range (first last : Char)
  /-- The characters that make up words. -/
  | word
  /-- The decimal digits of all scripts. -/
  | digit
  /-- White space. -/
  | blank
  deriving DecidableEq

/-- Whether a character is among those of an item. The named classes follow version 16 of the
Unicode standard: characters that are younger belong to none of them. -/
def CharClass.Item.contains : CharClass.Item → Char → Bool
  | .range first last, c => decide (first ≤ c) && decide (c ≤ last)
  | .word, c => Text.isWordCharacter c && !Text.isRecent c
  | .digit, c => Text.isDecimalDigit c && !Text.isRecent c
  | .blank, c => Text.isBlank c

/-- A class of characters: those of some items, or all others. -/
structure CharClass where
  /-- Whether the class holds the characters that no item names. -/
  negated : Bool
  /-- The items. -/
  items : List CharClass.Item
  deriving DecidableEq

namespace CharClass

/-- Whether a character is in a class. -/
def contains (s : CharClass) (c : Char) : Bool := (s.items.any fun i => i.contains c) != s.negated

/-- The class of one character. -/
def single (c : Char) : CharClass := ⟨false, [.range c c]⟩

/-- The class of all characters but the line feed. -/
def anyInLine : CharClass := ⟨true, [.range '\n' '\n']⟩

/-- The item that a letter or sign after a backslash stands for. -/
def escapedItem? (c : Char) : Option Item :=
  if c = 'w' then some .word
  else if c = 'd' then some .digit
  else if c = 's' then some .blank
  else if c = 'n' then some (.range '\n' '\n')
  else if c = 'r' then some (.range '\r' '\r')
  else if c = 't' then some (.range '\t' '\t')
  else if c.isAlphanum ∨ 128 ≤ c.toNat ∨ c.toNat ≤ 32 then none
  else some (.range c c)

/-- Reads the items of a bracket expression up to its closing bracket. -/
def readItems : List Char → Option (List Item × List Char)
  | [] => none
  | ']' :: rest => some ([], rest)
  | '\\' :: c :: rest => do
    let item ← escapedItem? c
    let (items, rest) ← readItems rest
    return (item :: items, rest)
  | a :: '-' :: b :: rest =>
    if b = ']' then some ([.range a a, .range '-' '-'], rest)
    else if a ≤ b ∧ b ≠ '\\' then do
      let (items, rest) ← readItems rest
      return (.range a b :: items, rest)
    else none
  | c :: rest => do
    let (items, rest) ← readItems rest
    return (.range c c :: items, rest)

/-- The signs that stand for themselves only after a backslash. -/
def reservedSigns : List Char := ['(', ')', '[', ']', '{', '}', '*', '+', '?', '|', '^', '$', '\\']

/-- Reads a class from the start of a pattern. A bracket expression has at least one item. -/
def read : List Char → Option (CharClass × List Char)
  | [] => none
  | '.' :: rest => some (anyInLine, rest)
  | '\\' :: c :: rest => (escapedItem? c).map fun item => (⟨false, [item]⟩, rest)
  | '[' :: '^' :: rest => do
    let (items, rest) ← readItems rest
    if items.isEmpty then none else return (⟨true, items⟩, rest)
  | '[' :: rest => do
    let (items, rest) ← readItems rest
    if items.isEmpty then none else return (⟨false, items⟩, rest)
  | c :: rest => if c ∈ reservedSigns then none else some (single c, rest)

end CharClass

/-! ### Patterns -/

/-- How many characters of the class make up a match. -/
inductive Quantifier
  /-- One character. -/
  | one
  /-- As many as there are, at least one. -/
  | oneOrMore
  /-- As many as there are, perhaps none. -/
  | anyNumber
  deriving DecidableEq

/-- A class of characters with a quantifier, and its notation. -/
structure TokenPattern where
  /-- The notation that the pattern was given in. -/
  source : String
  /-- The characters that may be matched. -/
  charClass : CharClass
  /-- How many of them make up a match. -/
  quantifier : Quantifier
  deriving DecidableEq

namespace TokenPattern

/-- The quantifier that is the rest of a pattern. -/
def quantifier? : List Char → Option Quantifier
  | [] => some .one
  | ['+'] => some .oneOrMore
  | ['*'] => some .anyNumber
  | _ => none

/-- Reads the notation of a pattern: one class, then its quantifier. All other patterns are called
malformed, whether they have a meaning as regular expressions or not. -/
def parse (source : String) : Except Error TokenPattern :=
  match CharClass.read source.toList with
  | some (charClass, rest) =>
    match quantifier? rest with
    | some quantifier => .ok ⟨source, charClass, quantifier⟩
    | none => .error (.pattern .malformed)
  | none => .error (.pattern .malformed)

/-- The pattern of words: one or more word characters. -/
def word : TokenPattern := ⟨"\\w+", ⟨false, [.word]⟩, .oneOrMore⟩

/-- The pattern of separators: white space and hyphens, one or more. -/
def separator : TokenPattern := ⟨"[\\s\\-]+", ⟨false, [.blank, .range '-' '-']⟩, .oneOrMore⟩

/-! ### Segments -/

/-- A part of a text: a match of the pattern, or the text between two matches. -/
structure Segment where
  /-- Whether the part is a match. -/
  isMatch : Bool
  /-- The characters. -/
  chars : List Char
  deriving DecidableEq

/-- Puts a character that is not matched in front, into the gap that is there. -/
def extendGap (c : Char) : List Segment → List Segment
  | ⟨false, cs⟩ :: rest => ⟨false, c :: cs⟩ :: rest
  | segments => ⟨false, [c]⟩ :: segments

/-- Puts a matched character in front, into the match that is there. -/
def extendMatch (c : Char) : List Segment → List Segment
  | ⟨true, cs⟩ :: rest => ⟨true, c :: cs⟩ :: rest
  | segments => ⟨true, [c]⟩ :: segments

/-- Puts a matched character in front, as the quantifier has it. -/
def addMatched (q : Quantifier) (c : Char) (segments : List Segment) : List Segment :=
  match q with
  | .one => ⟨true, [c]⟩ :: segments
  | .oneOrMore | .anyNumber => extendMatch c segments

/-- The empty match at a place where nothing longer matches. There is none right after a match. -/
def emptyMatch (q : Quantifier) (afterMatch : Bool) : List Segment :=
  if q = .anyNumber ∧ afterMatch = false then [⟨true, []⟩] else []

/-- The segments of the rest of a text, given whether a match ends where the rest begins. -/
def segmentsFrom (p : TokenPattern) (afterMatch : Bool) : List Char → List Segment
  | [] => emptyMatch p.quantifier afterMatch
  | c :: cs =>
    if p.charClass.contains c then addMatched p.quantifier c (segmentsFrom p true cs)
    else emptyMatch p.quantifier afterMatch ++ extendGap c (segmentsFrom p false cs)

/-- The matches and gaps of a text, in order. -/
def segments (p : TokenPattern) (text : List Char) : List Segment := segmentsFrom p false text

private theorem flatten_extendGap (c : Char) (ss : List Segment) :
    ((extendGap c ss).map (·.chars)).flatten = c :: (ss.map (·.chars)).flatten := by
  unfold extendGap
  split <;> simp

private theorem flatten_addMatched (q : Quantifier) (c : Char) (ss : List Segment) :
    ((addMatched q c ss).map (·.chars)).flatten = c :: (ss.map (·.chars)).flatten := by
  cases q <;> simp only [addMatched, extendMatch] <;> (try split) <;> simp

private theorem flatten_emptyMatch (q : Quantifier) (afterMatch : Bool) :
    ((emptyMatch q afterMatch).map (·.chars)).flatten = [] := by
  unfold emptyMatch
  split <;> simp

/-- **The segments make up the text.** -/
theorem flatten_segments (p : TokenPattern) (text : List Char) :
    ((p.segments text).map (·.chars)).flatten = text := by
  have key : ∀ afterMatch, ((p.segmentsFrom afterMatch text).map (·.chars)).flatten = text := by
    induction text with
    | nil => exact fun afterMatch => flatten_emptyMatch p.quantifier afterMatch
    | cons c cs ih =>
      intro afterMatch
      simp only [segmentsFrom]
      split
      · rw [flatten_addMatched, ih]
      · rw [List.map_append, List.flatten_append, flatten_emptyMatch, flatten_extendGap, ih]
        rfl
  exact key false

end TokenPattern

end FullText
