import FullText.Clause

/-!
# The notation of queries

A query is written as words with white space between them, one word for each clause. A word is a
field name and a colon, both of which may be missing, a term, and modifiers. The modifier `~` gives
an edit distance and the modifier `^` a boost; each may be used once, in either order. The first
colon ends the field name, whatever comes before it.

A word is read from left to right and the first fault is reported, together with the whole word.
Only then is the clause checked against the configuration.

## Main definitions

* `Clause.parse` : reads a word.
* `Clause.parseQuery` : reads a query.
-/

namespace FullText.Clause

/-- Whether a character starts a modifier. -/
def isModifier (c : Char) : Bool := c = '~' || c = '^'

/-- The text up to the first modifier, and the modifiers, each with its value. -/
def splitModifiers : List Char → List Char × List (Char × List Char)
  | [] => ([], [])
  | c :: rest =>
    let (value, modifiers) := splitModifiers rest
    if isModifier c then ([], (c, value) :: modifiers) else (c :: value, modifiers)

/-- The text before the first colon, if there is one, and the text after it. -/
def splitField : List Char → Option (List Char) × List Char
  | [] => (none, [])
  | c :: rest =>
    if c = ':' then (some [], rest)
    else match splitField rest with
      | (some name, body) => (some (c :: name), body)
      | (none, body) => (none, c :: body)

/-- Reads the value of an edit distance: digits, for a number of 32 bits. -/
def readDistance (value : List Char) : Except QueryFault UInt32 :=
  if value.isEmpty || !value.all Char.isDigit then .error (.invalidDistance (String.ofList value))
  else
    let n := Numeral.digitsValue value
    if n < UInt32.size then .ok (UInt32.ofNat n)
    else .error (.excessiveDistance (String.ofList value))

/-- Reads the value of a boost: digits with at most one point among them, for a number that is not
zero. -/
def readBoost (value : List Char) : Except QueryFault Binary64 :=
  if value.all fun c => c.isDigit || c = '.' then
    match Binary64.parseNumeral? false value with
    | some numeral =>
      let boost := numeral.toBinary64
      if Binary64.zero.less boost then .ok boost else .error (.zeroBoost (String.ofList value))
    | none => .error (.invalidBoost (String.ofList value))
  else .error (.invalidBoost (String.ofList value))

/-- Reads modifiers, given the edit distance and the boost that were read before. -/
def readModifiers (distance : Option UInt32) (boost : Option Binary64) :
    List (Char × List Char) → Except QueryFault (Option UInt32 × Option Binary64)
  | [] => .ok (distance, boost)
  | (modifier, value) :: rest =>
    if modifier = '~' then
      if distance.isSome then .error .repeatedDistance
      else match readDistance value with
        | .ok d => readModifiers (some d) boost rest
        | .error fault => .error fault
    else
      if boost.isSome then .error .repeatedBoost
      else match readBoost value with
        | .ok b => readModifiers distance (some b) rest
        | .error fault => .error fault

/-- Reads a word, without a check of the clause. -/
def read (word : List Char) : Except QueryFault Clause :=
  let (field, rest) := splitField word
  let (term, modifiers) := splitModifiers rest
  if field = some [] then .error .emptyFieldName
  else if ':' ∈ term then .error .unexpectedColon
  else if term.isEmpty then .error .emptyTerm
  else match readModifiers none none modifiers with
    | .error fault => .error fault
    | .ok (distance, boost) =>
      .ok { ofTerm (String.ofList term) with
        field := field.map String.ofList
        distance := distance
        boost := boost.getD .one }

/-- Reads a word as a clause that fits the configuration. -/
def parse (config : Config) (word : String) : Except Error Clause :=
  match read word.toList with
  | .error fault => .error (.query fault word)
  | .ok clause =>
    match clause.fault? config with
    | some fault => .error (.query fault word)
    | none => .ok clause

/-- Reads words, up to the first that is refused. -/
def parseWords (config : Config) : List String → Except Error (List Clause)
  | [] => .ok []
  | word :: rest => do
    let clause ← parse config word
    let clauses ← parseWords config rest
    return clause :: clauses

/-- Reads a query. -/
def parseQuery (config : Config) (query : String) : Except Error (List Clause) :=
  parseWords config (Text.words query)

end FullText.Clause
