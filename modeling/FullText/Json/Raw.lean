import FullText.Json

/-!
# The structure of a JSON text

Reading a JSON text has two stages. The first one, in this module, takes the text apart: it finds
strings, numbers and containers and checks that the text is well formed, but neither joins
surrogate escapes to characters nor computes numbers. Parts of a text that nobody asks for are
held to no more than that. The second stage interprets what is asked for.

## Main definitions

* `Json.Raw` : a JSON text taken apart.
* `Json.Piece` : a character of a string, as written.
* `Json.NumberToken` : a number, as written.
* `Json.Raw.parse?` : takes a text apart.
-/

namespace FullText.Json

/-- A character of a string as it is written: plain or by a short escape, or as a code unit. -/
inductive Piece
  /-- A character that stands for itself or has an escape of its own. -/
  | char (c : Char)
  /-- A UTF-16 code unit, given by its four hexadecimal digits. -/
  | unit (code : Nat)
  deriving DecidableEq

/-- A number as it is written. -/
structure NumberToken where
  /-- Whether there is a minus sign. -/
  negative : Bool
  /-- The digits before the point. -/
  whole : List Char
  /-- The digits after the point, if there is one. -/
  fraction : Option (List Char)
  /-- The exponent, if there is one. -/
  exponent : Option Int
  deriving DecidableEq

/-- A JSON text taken apart, its strings and numbers not yet interpreted. -/
inductive Raw
  /-- The null value. -/
  | null
  /-- A truth value. -/
  | bool (b : Bool)
  /-- A number. -/
  | number (token : NumberToken)
  /-- A string. -/
  | string (pieces : List Piece)
  /-- An array. -/
  | array (items : List Raw)
  /-- An object, with all its members in order. -/
  | object (members : List (List Piece × Raw))

/-- A reader takes a value from the start of a text and leaves the rest of the text. -/
abbrev Reader (α : Type) := List Char → Option (α × List Char)

/-! ### White space and strings -/

/-- Whether a character is white space between the parts of a JSON text. -/
def isSpace (c : Char) : Bool := c = ' ' || c = '\n' || c = '\r' || c = '\t'

/-- The text after its leading white space. -/
def skipSpace (text : List Char) : List Char := text.dropWhile isSpace

/-- The value of a hexadecimal digit. -/
def hexValue? (c : Char) : Option Nat :=
  if c.isDigit then some (c.toNat - '0'.toNat)
  else if 'a' ≤ c ∧ c ≤ 'f' then some (c.toNat - 'a'.toNat + 10)
  else if 'A' ≤ c ∧ c ≤ 'F' then some (c.toNat - 'A'.toNat + 10)
  else none

/-- The code unit of four hexadecimal digits. -/
def codeUnit? (a b c d : Char) : Option Nat := do
  let a ← hexValue? a
  let b ← hexValue? b
  let c ← hexValue? c
  let d ← hexValue? d
  return ((a * 16 + b) * 16 + c) * 16 + d

/-- The character that a letter after a backslash stands for. -/
def unescape? (c : Char) : Option Char :=
  if c = '"' ∨ c = '\\' ∨ c = '/' then some c
  else if c = 'b' then some '\x08'
  else if c = 'f' then some '\x0C'
  else if c = 'n' then some '\n'
  else if c = 'r' then some '\r'
  else if c = 't' then some '\t'
  else none

/-- Puts a piece in front of the pieces that a reader found. -/
def Piece.cons (p : Piece) : List Piece × List Char → List Piece × List Char
  | (pieces, rest) => (p :: pieces, rest)

/-- Reads a string after its opening quotation mark. Control characters must be escaped. -/
def readPieces : Reader (List Piece)
  | [] => none
  | '"' :: rest => some ([], rest)
  | '\\' :: 'u' :: a :: b :: c :: d :: rest => do
      let code ← codeUnit? a b c d
      return (← readPieces rest) |> (Piece.unit code).cons
  | '\\' :: c :: rest => do
      let c ← unescape? c
      return (← readPieces rest) |> (Piece.char c).cons
  | c :: rest =>
      if c = '\\' ∨ c.toNat < 0x20 then none
      else (readPieces rest).map (Piece.char c).cons

/-! ### Numbers -/

/-- Reads digits, at least one. -/
def readDigits : Reader (List Char) := fun text =>
  match text.takeWhile Char.isDigit with
  | [] => none
  | digits => some (digits, text.dropWhile Char.isDigit)

/-- Reads the digits before the point: a zero, or digits that do not start with one. -/
def readWhole : Reader (List Char)
  | '0' :: rest =>
    match rest with
    | c :: _ => if c.isDigit then none else some (['0'], rest)
    | [] => some (['0'], rest)
  | text => readDigits text

/-- Reads a point with the digits after it, if there is a point. -/
def readFraction : Reader (Option (List Char))
  | '.' :: rest => (readDigits rest).map fun (digits, rest) => (some digits, rest)
  | text => some (none, text)

/-- Reads an exponent, if there is one. -/
def readExponent : Reader (Option Int)
  | mark :: rest =>
    if mark = 'e' ∨ mark = 'E' then
      let (negative, digits) := Binary64.splitSign rest
      (readDigits digits).map fun (digits, rest) =>
        let value : Int := Numeral.digitsValue digits
        (some (if negative then -value else value), rest)
    else some (none, mark :: rest)
  | [] => some (none, [])

/-- Splits off a leading minus. -/
def splitMinus : List Char → Bool × List Char
  | '-' :: rest => (true, rest)
  | text => (false, text)

/-- Reads a number. -/
def readNumber : Reader NumberToken := fun text => do
  let (negative, text) := splitMinus text
  let (whole, text) ← readWhole text
  let (fraction, text) ← readFraction text
  let (exponent, text) ← readExponent text
  return (⟨negative, whole, fraction, exponent⟩, text)

/-! ### Values -/

/-- Reads items with commas between them up to the closing character. There is at least one. The
first argument bounds the number of items. -/
def readItems {α : Type} (close : Char) (item : Reader α) : Nat → Reader (List α)
  | 0, _ => none
  | n + 1, text => do
    let (first, text) ← item text
    match skipSpace text with
    | [] => none
    | c :: rest =>
      if c = close then return ([first], rest)
      else if c = ',' then
        let (others, rest) ← readItems close item n (skipSpace rest)
        return (first :: others, rest)
      else none

/-- Reads the items of a container after its opening character. -/
def readContainer {α : Type} (close : Char) (item : Reader α) : Reader (List α) := fun text =>
  match skipSpace text with
  | [] => none
  | c :: rest => if c = close then some ([], rest) else readItems close item text.length (c :: rest)

/-- Reads a member of an object: a key, a colon and a value. -/
def readMember (value : Reader Raw) : Reader (List Piece × Raw)
  | '"' :: text => do
    let (key, text) ← readPieces text
    match skipSpace text with
    | ':' :: text =>
      let (v, text) ← value (skipSpace text)
      return ((key, v), text)
    | _ => none
  | _ => none

/-- Reads a value inside of which there are fewer than `depth` containers. -/
def readValue : Nat → Reader Raw
  | 0, _ => none
  | depth + 1, text =>
    match text with
    | '"' :: rest => (readPieces rest).map fun (pieces, rest) => (.string pieces, rest)
    | '[' :: rest =>
      (readContainer ']' (readValue depth) rest).map fun (items, rest) => (.array items, rest)
    | '{' :: rest =>
      (readContainer '}' (readMember (readValue depth)) rest).map fun (members, rest) =>
        (.object members, rest)
    | 'n' :: 'u' :: 'l' :: 'l' :: rest => some (.null, rest)
    | 't' :: 'r' :: 'u' :: 'e' :: rest => some (.bool true, rest)
    | 'f' :: 'a' :: 'l' :: 's' :: 'e' :: rest => some (.bool false, rest)
    | _ => (readNumber text).map fun (token, rest) => (.number token, rest)

/-- Takes a JSON text apart. The text holds one value, with white space around it and nothing
else. -/
def Raw.parse? (text : String) : Option Raw :=
  match readValue (text.toList.length + 1) (skipSpace text.toList) with
  | some (v, rest) => if (skipSpace rest).isEmpty then some v else none
  | none => none

end FullText.Json
