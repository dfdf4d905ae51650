import FullText.Binary64.Nearest

/-!
# The shortest decimal that reads back

A finite number is written with the fewest decimal digits that round to it, and of the candidates
with that many digits the nearest one is taken. Two of them can be equally near; then a tie rule
decides. The candidates with last place `10 ^ k` are the multiples of `10 ^ k` within half a step
of the number. The search starts with a `k` that is too
large for any candidate and comes down; it must end, because every number is itself a multiple of
`10 ^ -1074`.

## Main definitions

* `Decimal` : digits with the place of the last one.
* `TieRule` : which of two decimals is taken that are equally near.
* `Binary64.readsBack` : whether a decimal rounds to a magnitude.
* `Binary64.shortest` : the shortest such decimal.
-/

namespace FullText

/-- The decimal number `digits * 10 ^ exponent`. -/
structure Decimal where
  /-- All digits, as one natural number. -/
  digits : Nat
  /-- The place of the last digit. -/
  exponent : Int
  deriving DecidableEq

/-- Which of two neighbouring decimals is taken when a number is halfway between them. -/
inductive TieRule
  /-- The greater one. -/
  | up
  /-- The one with the even last digit. -/
  | even
  deriving DecidableEq

/-- Whether the greater of two equally near decimals is taken, given the digits of the lesser. -/
def TieRule.takesUpper : TieRule → Nat → Bool
  | up, _ => true
  | even, digits => digits % 2 == 1

namespace Binary64

/-- The numerator of `digits * 10 ^ exponent` as a fraction. -/
def raised (digits : Nat) (exponent : Int) : Nat := digits * Nat.pow 10 exponent.toNat

/-- The denominator of a decimal with the given last place. -/
def lowered (exponent : Int) : Nat := Nat.pow 10 (-exponent).toNat

/-- Whether the decimal `digits * 10 ^ exponent` rounds to the magnitude `m`: it lies between the
midpoints on both sides, ends included when `m` is even. -/
def readsBack (m digits : Nat) (exponent : Int) : Bool :=
  let value := 2 * (raised digits exponent * unitsPerOne)
  let low := midpoint (m - 1) * lowered exponent
  let high := midpoint m * lowered exponent
  if m % 2 = 0 then decide (low ≤ value) && decide (value ≤ high)
  else decide (low < value) && decide (value < high)

/-- The greatest multiple of `10 ^ exponent` not above the magnitude `m`, as its factor. -/
def floorDigits (m : Nat) (exponent : Int) : Nat :=
  units m * lowered exponent / raised unitsPerOne exponent

/-- Whether the multiple of `10 ^ exponent` above the magnitude `m` is taken rather than the one
below, of which both round to `m`: it is nearer, or the tie rule is for it. -/
def prefersUpper (tie : TieRule) (m digits : Nat) (exponent : Int) : Bool :=
  let middle := raised ((2 * digits + 1) * unitsPerOne) exponent
  let value := 2 * units m * lowered exponent
  decide (middle < value) || (decide (middle = value) && tie.takesUpper digits)

/-- The nearest multiple of `10 ^ exponent` that rounds to the magnitude `m`, if there is one. Only
the neighbours of the number can be nearest. -/
def digitsAt? (tie : TieRule) (m : Nat) (exponent : Int) : Option Nat :=
  let below := floorDigits m exponent
  if readsBack m (below + 1) exponent && (prefersUpper tie m below exponent ||
      !readsBack m below exponent) then some (below + 1)
  else if readsBack m below exponent then some below
  else none

/-- Comes down from the place `exponent` to the first with a decimal that rounds to `m`, at most
`steps` places. Where the steps end at place `-1074` the number itself is such a decimal. -/
def shortestFrom (tie : TieRule) (m : Nat) : Nat → Int → Decimal
  | 0, exponent => ⟨floorDigits m exponent, exponent⟩
  | steps + 1, exponent =>
    match digitsAt? tie m exponent with
    | some digits => ⟨digits, exponent⟩
    | none => shortestFrom tie m steps (exponent - 1)

/-- A place above the leading digit of a magnitude: the binary logarithm in decimal places, rounded
up generously. -/
def startingPlace (m : Nat) : Int := (((units m).log2 : Int) - 1073) * 1233 / 4096 + 2

/-- The shortest decimal that rounds to a positive finite magnitude. -/
def shortest (tie : TieRule) (m : Nat) : Decimal :=
  shortestFrom tie m (startingPlace m + 1074).toNat (startingPlace m)

end Binary64

end FullText
