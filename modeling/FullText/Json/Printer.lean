import FullText.Json

/-!
# JSON texts

A JSON value is written either without any white space, or with every item and member on a line of
its own, indented by two spaces for each container around it. In strings only quotation marks,
backslashes and control characters are escaped. A number that is not finite has no JSON form and
is written as `null`.

## Main definitions

* `Json.compact` : the text without white space.
* `Json.pretty` : the indented text.
-/

namespace FullText.Json

/-! ### Scalars -/

/-- The escape of a character in a string, if it needs one. -/
def escape? (c : Char) : Option (List Char) :=
  if c = '"' then some ['\\', '"']
  else if c = '\\' then some ['\\', '\\']
  else if c = '\x08' then some ['\\', 'b']
  else if c = '\x0C' then some ['\\', 'f']
  else if c = '\n' then some ['\\', 'n']
  else if c = '\r' then some ['\\', 'r']
  else if c = '\t' then some ['\\', 't']
  else if c.toNat < 0x20 then
    some ['\\', 'u', '0', '0', Nat.digitChar (c.toNat / 16), Nat.digitChar (c.toNat % 16)]
  else none

/-- A character as it stands in a string. -/
def escape (c : Char) : List Char := (escape? c).getD [c]

/-- A string with its quotation marks. -/
def quote (s : String) : List Char := '"' :: (s.toList.flatMap escape ++ ['"'])

/-- An integer. -/
def writeInteger (n : Int) : List Char :=
  if n < 0 then '-' :: decimalDigits n.natAbs else decimalDigits n.natAbs

/-- A number; one that is not finite has no JSON form. -/
def writeNumber (x : Binary64) : List Char :=
  if x.isFinite then (x.write .data).toList else ['n', 'u', 'l', 'l']

/-! ### Without white space -/

mutual

/-- The characters of a value, without white space. -/
def compactChars : Json → List Char
  | null => ['n', 'u', 'l', 'l']
  | bool true => ['t', 'r', 'u', 'e']
  | bool false => ['f', 'a', 'l', 's', 'e']
  | integer n => writeInteger n
  | number x => writeNumber x
  | string s => quote s
  | array [] => ['[', ']']
  | array (item :: items) => '[' :: (compactChars item ++ compactItems items)
  | object [] => ['{', '}']
  | object ((key, value) :: members) =>
      '{' :: (quote key ++ ':' :: (compactChars value ++ compactMembers members))

/-- The items of an array after the first one, with the closing bracket. -/
def compactItems : List Json → List Char
  | [] => [']']
  | item :: items => ',' :: (compactChars item ++ compactItems items)

/-- The members of an object after the first one, with the closing brace. -/
def compactMembers : List (String × Json) → List Char
  | [] => ['}']
  | (key, value) :: members =>
      ',' :: (quote key ++ ':' :: (compactChars value ++ compactMembers members))

end

/-- The text of a value, without white space. -/
def compact (v : Json) : String := String.ofList v.compactChars

/-! ### Indented -/

/-- The start of a line inside `depth` containers. -/
def newLine (depth : Nat) : List Char := '\n' :: List.replicate (2 * depth) ' '

mutual

/-- The characters of a value inside `depth` containers, indented. -/
def prettyChars (depth : Nat) : Json → List Char
  | null => ['n', 'u', 'l', 'l']
  | bool true => ['t', 'r', 'u', 'e']
  | bool false => ['f', 'a', 'l', 's', 'e']
  | integer n => writeInteger n
  | number x => writeNumber x
  | string s => quote s
  | array [] => ['[', ']']
  | array (item :: items) =>
      '[' :: (newLine (depth + 1) ++ prettyChars (depth + 1) item ++ prettyItems depth items)
  | object [] => ['{', '}']
  | object ((key, value) :: members) =>
      '{' :: (newLine (depth + 1) ++ quote key ++ ':' :: ' ' ::
        (prettyChars (depth + 1) value ++ prettyMembers depth members))

/-- The items of an indented array after the first one, with the closing bracket. -/
def prettyItems (depth : Nat) : List Json → List Char
  | [] => newLine depth ++ [']']
  | item :: items =>
      ',' :: (newLine (depth + 1) ++ prettyChars (depth + 1) item ++ prettyItems depth items)

/-- The members of an indented object after the first one, with the closing brace. -/
def prettyMembers (depth : Nat) : List (String × Json) → List Char
  | [] => newLine depth ++ ['}']
  | (key, value) :: members =>
      ',' :: (newLine (depth + 1) ++ quote key ++ ':' :: ' ' ::
        (prettyChars (depth + 1) value ++ prettyMembers depth members))

end

/-- The indented text of a value. -/
def pretty (v : Json) : String := String.ofList (v.prettyChars 0)

end FullText.Json
