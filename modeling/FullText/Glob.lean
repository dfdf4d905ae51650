import FullText.Error
import FullText.Text.Split

/-!
# Wildcard patterns

A wildcard pattern is a text in which stars stand for arbitrary stretches of a line; every other
character stands for itself. A stretch of a line may be empty, but never holds a line feed.

Patterns are classified by where their stars are. The text before the first star is a literal head
that all matches share, so that matches need only be looked for in one stretch of a sorted
vocabulary.

A pattern that would take up too much room is refused. How much room a pattern takes up is an
estimate: which patterns near the limit are refused is only approximately what an engine for regular
expressions would decide. Nothing is shown of the numbers; what is said of a pattern is said under
the condition that it compiles.

## Main definitions

* `StarPlacement` : where the stars of a text are.
* `Glob` : a pattern.
* `Glob.compile` : the pattern of a text.
* `Glob.accepts` : whether a pattern matches a text.
-/

namespace FullText

/-- The character that stands for an arbitrary stretch. -/
def isStar (c : Char) : Bool := decide (c = '*')

/-! ### Where the stars are -/

/-- Where the stars of a text are. -/
inductive StarPlacement
  /-- There are none. -/
  | none
  /-- There is one, at the start. -/
  | leading
  /-- There is one, at the end. -/
  | trailing
  /-- There is one at the start and one at the end. -/
  | both
  /-- There is one inside. -/
  | contained
  deriving DecidableEq

namespace StarPlacement

/-- The placement in a text that starts with a star or not, ends with another one or not, and has
stars inside or not. -/
def ofFlags (first last inside : Bool) : StarPlacement :=
  match first, last, inside with
  | _, _, true => contained
  | false, false, false => none
  | true, false, false => leading
  | false, true, false => trailing
  | true, true, false => both

/-- Where the stars of a text are. A lone star is a leading one. -/
def classify : List Char → StarPlacement
  | [] => none
  | c :: rest =>
    ofFlags (isStar c) (rest.getLast?.any isStar) (rest.dropLast.any isStar)

/-- The name of a placement in stored clauses. -/
def name : StarPlacement → String
  | none => "None"
  | leading => "Leading"
  | trailing => "Trailing"
  | both => "Both"
  | contained => "Contained"

/-- The placement with a name. -/
def ofName? (name : String) : Option StarPlacement :=
  [none, leading, trailing, both, contained].find? fun p => p.name = name

end StarPlacement

/-! ### Patterns -/

/-- A wildcard pattern. -/
structure Glob where
  /-- The characters, stars included. -/
  chars : List Char
  deriving DecidableEq

namespace Glob

/-- The room that a character of a pattern takes up: a star much more than a literal character. The
two numbers are approximations of what a compiled pattern needs in bytes. -/
def room (c : Char) : Nat := if isStar c then 600 else 32 * c.utf8Size

/-- The room that a pattern may take up, ten mebibytes. As the room is estimated, the limit is an
approximation as well. -/
def roomLimit : Nat := 10485760

/-- The room that a pattern takes up. -/
def totalRoom : List Char → Nat
  | [] => 0
  | c :: rest => room c + totalRoom rest

/-- The pattern of a text, unless it takes up too much room. -/
def compile (text : String) : Except Error Glob :=
  if roomLimit < totalRoom text.toList then .error (.pattern .tooLarge)
  else .ok ⟨text.toList⟩

/-- The text before the first star, with which all matches start. -/
def literalHead (g : Glob) : String := String.ofList (g.chars.takeWhile fun c => !isStar c)

/-- The text of a pattern. -/
def text (g : Glob) : String := String.ofList g.chars

/-! ### Matching

Whether a pattern matches is found for all ends of a text at once. A row holds one answer for each
end of the text, the whole text first and the empty end last. The row of a pattern follows from the
row of the pattern without its first character. -/

/-- The row of the empty pattern, which matches only the empty end. -/
def emptyRow : List Char → List Bool
  | [] => [true]
  | _ :: text => false :: emptyRow text

/-- The row of a pattern that starts with the literal character `a`, given the row of the rest. -/
def literalRow (a : Char) : List Char → List Bool → List Bool
  | c :: text, _ :: row => (decide (a = c) && row.headD false) :: literalRow a text row
  | _, _ => [false]

/-- The row of a pattern that starts with a star, given the row of the rest. A star stands for
nothing, or for one more character that is not a line feed. -/
def starRow : List Char → List Bool → List Bool
  | c :: text, here :: row =>
    let below := starRow text row
    (here || (decide (c ≠ '\n') && below.headD false)) :: below
  | _, row => row

/-- The row of a pattern. -/
def row (text : List Char) : List Char → List Bool
  | [] => emptyRow text
  | a :: pattern =>
    if isStar a then starRow text (row text pattern) else literalRow a text (row text pattern)

/-- Whether a pattern matches a text. -/
def accepts (g : Glob) (text : List Char) : Bool := (row text g.chars).headD false

end Glob

end FullText
