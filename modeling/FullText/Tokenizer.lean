import FullText.Token
import FullText.TokenPattern

/-!
# Tokenizers

A tokenizer takes a text apart into tokens. The tokenizers of this library follow a pattern: either
every match of the pattern is a token, or every non-empty gap between matches is. A signature tells
tokenizers apart, so that a stored index is never read with another one.

Taking a text apart never fails: a tokenizer has a list of tokens for every text, perhaps an empty
one, and there are no tokenizers that refuse a text. A pattern that cannot be read is refused before
there is a tokenizer.

## Main definitions

* `Tokenizer` : a named way to take texts apart.
* `Tokenizer.ofPattern` : the tokenizer of a pattern.
* `Tokenizer.word`, `Tokenizer.separator` : words, and text between white space and hyphens.
-/

namespace FullText

/-- A named way to take texts apart into tokens. -/
structure Tokenizer where
  /-- The name. -/
  name : String
  /-- The name together with all settings. -/
  signature : String
  /-- The tokens of a text. -/
  tokens : String → List Token

namespace Tokenizer

/-- Which segments of a text are tokens. -/
inductive Extraction
  /-- The matches of the pattern. -/
  | matched
  /-- The non-empty gaps between the matches. -/
  | gaps
  deriving DecidableEq

/-- The word for a way of extraction in signatures. -/
def Extraction.name : Extraction → String
  | matched => "matches"
  | gaps => "gaps"

/-- Whether a segment is a token. -/
def Extraction.selects : Extraction → TokenPattern.Segment → Bool
  | matched, s => s.isMatch
  | gaps, s => !s.isMatch && !s.chars.isEmpty

/-- The number of bytes of a text in UTF-8. -/
def byteLength : List Char → Nat
  | [] => 0
  | c :: rest => c.utf8Size + byteLength rest

@[simp] theorem byteLength_nil : byteLength [] = 0 := rfl

@[simp] theorem byteLength_cons (c : Char) (text : List Char) :
    byteLength (c :: text) = c.utf8Size + byteLength text := rfl

@[simp] theorem byteLength_append (a b : List Char) :
    byteLength (a ++ b) = byteLength a + byteLength b := by
  induction a with
  | nil => rw [List.nil_append, byteLength_nil, Nat.zero_add]
  | cons c a ih => rw [List.cons_append, byteLength_cons, byteLength_cons, ih, Nat.add_assoc]

theorem byteLength_eq_zero_iff {text : List Char} : byteLength text = 0 ↔ text = [] := by
  cases text with
  | nil => simp
  | cons c text =>
    have := c.utf8Size_pos
    simp only [byteLength_cons, reduceCtorEq, iff_false]
    omega

/-- The selected segments as tokens, given the number of the next token and the offset of the next
byte. -/
def place (e : Extraction) (position start : Nat) : List TokenPattern.Segment → List Token
  | [] => []
  | s :: rest =>
    let stop := start + byteLength s.chars
    if e.selects s then
      ⟨String.ofList s.chars, position, start, stop⟩ :: place e (position + 1) stop rest
    else place e position stop rest

/-- The tokenizer of a pattern. -/
def ofPattern (p : TokenPattern) (e : Extraction) : Tokenizer where
  name := "regex"
  signature := "regex(" ++ e.name ++ ":" ++ p.source ++ ")"
  tokens text := place e 0 0 (p.segments text.toList)

/-- The tokenizer whose tokens are words. -/
def word : Tokenizer := ofPattern .word .matched

/-- The tokenizer whose tokens are the texts between white space and hyphens. -/
def separator : Tokenizer := ofPattern .separator .gaps

end Tokenizer

end FullText
