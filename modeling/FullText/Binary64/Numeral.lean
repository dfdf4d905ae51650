import FullText.Binary64.Layout

/-!
# Numerals

A numeral is the decimal notation of a number: a sign, digits, and the place of the last digit. Its
value is the nearest double-precision number.

Numbers typed by a user may have a sign, digits with a point anywhere among them, and an exponent;
infinity and NaN are written as words, in any case.

## Main definitions

* `Numeral` : sign, digits and place.
* `Numeral.toBinary64` : the value.
* `Binary64.parse` : reads a number typed by a user.
-/

namespace FullText

/-- A number in decimal notation. -/
structure Numeral where
  /-- Whether there is a minus sign. -/
  negative : Bool
  /-- All digits, those of the fraction included. -/
  digits : List Char
  /-- The place of the last digit. -/
  exponent : Int
  deriving DecidableEq

namespace Numeral

/-- The natural number that a list of digits denotes. -/
def digitsValue (digits : List Char) : Nat := Nat.ofDigitChars 10 digits 0

/-- The magnitude nearest to `digits * 10 ^ exponent`. Places far outside the range of the finite
numbers are not computed: beyond `10 ^ 400` the magnitude is infinite, and a number that ends
before the place `10 ^ -400` is zero. -/
def magnitude (n : Numeral) : Nat :=
  let digits := digitsValue n.digits
  if digits = 0 then 0
  else if 400 < n.exponent then Binary64.infinityMagnitude
  else if n.exponent + n.digits.length < -400 then 0
  else Binary64.nearestMagnitude (Binary64.raised digits n.exponent) (Binary64.lowered n.exponent)

/-- The nearest double-precision number. -/
def toBinary64 (n : Numeral) : Binary64 := Binary64.ofMagnitude n.negative n.magnitude

end Numeral

namespace Binary64

/-- What is wrong with a number typed by a user. -/
inductive ParseFault
  /-- There is no text. -/
  | empty
  /-- The text is not a number. -/
  | malformed
  deriving DecidableEq

/-- The wording of a fault. -/
def ParseFault.message : ParseFault → String
  | .empty => "cannot parse float from empty string"
  | .malformed => "invalid float literal"

/-- Splits off a leading sign; the flag tells whether it is a minus. -/
def splitSign : List Char → Bool × List Char
  | '-' :: rest => (true, rest)
  | '+' :: rest => (false, rest)
  | text => (false, text)

/-- The exponent of a numeral: nothing, or a mark with a signed integer. -/
def parseExponent? : List Char → Option Int
  | [] => some 0
  | mark :: rest =>
    let (negative, digits) := splitSign rest
    if (mark = 'e' ∨ mark = 'E') ∧ digits ≠ [] ∧ digits.all Char.isDigit = true then
      let value : Int := Numeral.digitsValue digits
      some (if negative then -value else value)
    else none

/-- The digits after a point, and what follows them. Without a point there are none. -/
def splitFraction : List Char → List Char × List Char
  | '.' :: rest => (rest.takeWhile Char.isDigit, rest.dropWhile Char.isDigit)
  | rest => ([], rest)

/-- A numeral without its sign: digits, a point with further digits, and an exponent. There is at
least one digit, on either side of the point. -/
def parseNumeral? (negative : Bool) (text : List Char) : Option Numeral :=
  let whole := text.takeWhile Char.isDigit
  let (fraction, rest) := splitFraction (text.dropWhile Char.isDigit)
  if whole = [] ∧ fraction = [] then none
  else (parseExponent? rest).map fun e => ⟨negative, whole ++ fraction, e - fraction.length⟩

/-- Reads a number typed by a user. -/
def parse (text : String) : Except ParseFault Binary64 :=
  let (negative, body) := splitSign text.toList
  let word := String.ofList (body.map Char.toLower)
  if text.isEmpty then .error .empty
  else if word = "inf" ∨ word = "infinity" then .ok (ofMagnitude negative infinityMagnitude)
  else if word = "nan" then .ok (ofMagnitude negative nan.magnitude)
  else match parseNumeral? negative body with
    | some numeral => .ok numeral.toBinary64
    | none => .error .malformed

end Binary64

end FullText
