import FullText.Binary64.Shortest

/-!
# Written numbers

A number is written from the digits of its shortest decimal. Two layouts are in use. Messages and
query clauses write every number positionally and a whole number without a fraction. Data files
write small and large numbers with an exponent, and give whole numbers a fraction of zero, so that
they are told from integers. Figures in reports have a fixed number of places.

## Main definitions

* `NumberLayout` : the decisions that a layout makes.
* `NumberLayout.plain`, `NumberLayout.data` : the two layouts.
* `Binary64.write` : a number as text.
* `Binary64.writeFixed` : a number with a fixed number of places.
-/

namespace FullText

/-- How a number is laid out. -/
structure NumberLayout where
  /-- The least place of the leading digit that is written positionally; `none` is no limit. -/
  leastPlace : Option Int
  /-- The greatest place of the leading digit that is written positionally; `none` is no limit. -/
  greatestPlace : Option Int
  /-- What follows a whole number that is written positionally. -/
  wholeEnding : List Char
  /-- Which of two shortest decimals is taken that are equally near. -/
  tie : TieRule

namespace NumberLayout

/-- Every number is written positionally, and a whole number has no fraction. -/
def plain : NumberLayout := ⟨none, none, [], .up⟩

/-- Numbers from `0.00001` to below `10 ^ 16` are written positionally, and a whole number has the
fraction `.0`. -/
def data : NumberLayout := ⟨some (-5), some 15, ['.', '0'], .even⟩

/-- Whether a number with the given place of its leading digit is written positionally. -/
def isPositional (layout : NumberLayout) (place : Int) : Bool :=
  layout.leastPlace.all (fun least => decide (least ≤ place)) &&
    layout.greatestPlace.all (fun greatest => decide (place ≤ greatest))

end NumberLayout

/-- The decimal digits of a natural number. -/
def decimalDigits (n : Nat) : List Char := Nat.toDigits 10 n

/-- A natural number as text. -/
def writeNat (n : Nat) : String := String.ofList (decimalDigits n)

/-- Digits with the last one at place `10 ^ exponent`, written positionally. -/
def writePositional (wholeEnding digits : List Char) (exponent : Int) : List Char :=
  if 0 ≤ exponent then digits ++ List.replicate exponent.toNat '0' ++ wholeEnding
  else
    let places := (-exponent).toNat
    if places < digits.length then
      digits.take (digits.length - places) ++ '.' :: digits.drop (digits.length - places)
    else '0' :: '.' :: (List.replicate (places - digits.length) '0' ++ digits)

/-- Digits with the leading one at the place `10 ^ place`, written with an exponent. -/
def writeScientific (digits : List Char) (place : Int) : List Char :=
  digits.take 1 ++ (if digits.length ≤ 1 then [] else '.' :: digits.drop 1) ++
    'e' :: (if 0 ≤ place then '+' else '-') :: decimalDigits place.natAbs

/-- A decimal as text. -/
def Decimal.write (layout : NumberLayout) (d : Decimal) : List Char :=
  let digits := decimalDigits d.digits
  let place := d.exponent + (digits.length - 1 : Nat)
  if layout.isPositional place then writePositional layout.wholeEnding digits d.exponent
  else writeScientific digits place

namespace Binary64

/-- A finite magnitude as text. -/
def writeMagnitude (layout : NumberLayout) (m : Nat) : List Char :=
  if m = 0 then '0' :: layout.wholeEnding else (shortest layout.tie m).write layout

/-- A number as text. -/
def write (layout : NumberLayout) (x : Binary64) : String :=
  if x.isNaN then "NaN"
  else String.ofList ((if x.isNegative then ['-'] else []) ++
    if x.isFinite then writeMagnitude layout x.magnitude else ['i', 'n', 'f'])

/-- The natural number nearest to a fraction, a half going to the even neighbour. -/
def roundDiv (num den : Nat) : Nat :=
  let below := num / den
  if 2 * (num % den) < den then below
  else if den < 2 * (num % den) then below + 1
  else if below % 2 = 0 then below else below + 1

/-- A number with a fixed number of places after the point. -/
def writeFixed (places : Nat) (x : Binary64) : String :=
  if x.isNaN then "NaN"
  else
    let sign := if x.isNegative then ['-'] else []
    if x.isFinite then
      let scaled := roundDiv (units x.magnitude * Nat.pow 10 places) unitsPerOne
      let digits := decimalDigits scaled
      let padded := List.replicate (places + 1 - digits.length) '0' ++ digits
      let whole := padded.take (padded.length - places)
      let fraction := padded.drop (padded.length - places)
      String.ofList (sign ++ whole ++ if places = 0 then [] else '.' :: fraction)
    else String.ofList (sign ++ ['i', 'n', 'f'])

end Binary64

end FullText
