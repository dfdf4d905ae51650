import FullText.Binary64

/-!
# Rounding to the nearest number

The nearest double-precision number to a fraction, ties going to the even magnitude. Magnitudes
grow with the values they stand for, so rounding looks for the least magnitude whose midpoint with
the next one is not below the fraction. All comparisons are of natural numbers, in units of
`2 ^ -1074`.

## Main definitions

* `Binary64.midpoint` : the point at which rounding passes from a magnitude to the next.
* `Binary64.nearestMagnitude` : the magnitude nearest to a fraction.
* `Binary64.ofNat` : the number nearest to a natural number.

## Main results

* `Binary64.bisect_eq_of_monotone` : bisection finds the first place at which a monotone test fails.
-/

namespace FullText.Binary64

/-! ### Bisection -/

/-- Looks for the first place in `[low, high]` at which the test `p` fails, halving the interval
`steps` times. -/
def bisect (p : Nat → Bool) : Nat → Nat → Nat → Nat
  | 0, low, _ => low
  | steps + 1, low, high =>
    if high ≤ low then low
    else if p ((low + high) / 2) then bisect p steps ((low + high) / 2 + 1) high
    else bisect p steps low ((low + high) / 2)

/-- **Bisection finds the first failure.** If `p` holds up to some place of the interval and fails
from there on, and at most `steps` halvings leave nothing of the interval, then the answer is that
place. -/
theorem bisect_eq_of_monotone {p : Nat → Bool} {t : Nat} (hp : ∀ i, p i = decide (i < t)) :
    ∀ {steps low high : Nat}, low ≤ t → t ≤ high → high - low < Nat.pow 2 steps →
      bisect p steps low high = t
  | 0, low, high, hl, hh, hs => by
      have hone : Nat.pow 2 0 = 1 := rfl
      simp only [bisect]
      omega
  | steps + 1, low, high, hl, hh, hs => by
      have hpow : Nat.pow 2 (steps + 1) = Nat.pow 2 steps * 2 := rfl
      simp only [bisect, hp, decide_eq_true_eq]
      split
      · omega
      · split
        · exact bisect_eq_of_monotone hp (by omega) hh (by omega)
        · exact bisect_eq_of_monotone hp hl (by omega) (by omega)

/-! ### Rounding -/

/-- Twice the midpoint between a magnitude and the next one, in units of `2 ^ -1074`. -/
def midpoint (m : Nat) : Nat := units m + units (m + 1)

/-- Whether the fraction `num / den`, in units of `2 ^ -1074`, rounds to a magnitude beyond `m`:
it lies above the midpoint, or on it when `m` is odd. -/
def roundsBeyond (num den m : Nat) : Bool :=
  decide (midpoint m * den < 2 * num) || (decide (midpoint m * den = 2 * num) && m % 2 == 1)

/-- The magnitude nearest to the fraction `num / den`. Fractions beyond the greatest finite number
by at least half its distance to the next go to infinity. -/
def nearestMagnitude (num den : Nat) : Nat :=
  let scaled := num * unitsPerOne
  bisect (roundsBeyond scaled den) 63 0 infinityMagnitude

/-- The number nearest to a fraction. -/
def nearest (negative : Bool) (num den : Nat) : Binary64 :=
  ofMagnitude negative (nearestMagnitude num den)

/-- The number nearest to a natural number. -/
def ofNat (n : Nat) : Binary64 := nearest false n 1

end FullText.Binary64
