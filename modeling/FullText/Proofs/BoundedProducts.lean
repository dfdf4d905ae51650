import FullText.Proofs.ExactSums

/-!
# Bounds on products and quotients

A product of numbers below `2 ^ k` and `2 ^ l` is below `2 ^ (k + l + 1)`, and a quotient of a
number that is at least `2 ^ (j - 1)` by one below `2 ^ l` is at least `2 ^ (j - l - 1)`. Rounding
can turn a product or a quotient into zero where the format ends, but never into a negative number.
What a number below one leaves of one is at least half the distance from one to the next number
below.

## Main results

* `Binary64.below_mul`, `Binary64.atLeast_mul`, `Binary64.nonnegative_mul` : products.
* `Binary64.atLeast_div`, `Binary64.nonnegative_div` : quotients.
* `Binary64.atLeast_one_sub` : what a number below one leaves of one.
* `Binary64.bounds_ofNat` : natural numbers of 64 bits.
* `Binary64.isPositiveFinite_of_bounds` : bounds on the parts make a number positive and finite.
-/

namespace FullText.Binary64

open Float.Model (UnpackedFloat Format totalExponent)
open Float.Model.UnpackedFloat

/-! ### Signs -/

/-- Rounding a positive number makes it zero at worst. -/
theorem nonnegative_roundWithAccuracy {m : Nat} {e : Int} (a : Accuracy)
    (he : 52 ≤ m.log2 ∨ e ≤ -1074) :
    Nonnegative (roundWithAccuracy Format.binary64 .positive m e a) := by
  obtain ⟨t, ht⟩ : ∃ t : Int, t = max ((m.log2 : Int) + 1 + e - 53) (-1074) := ⟨_, rfl⟩
  obtain ⟨r, -, ⟨-, h⟩ | ⟨hr, -, h⟩ | ⟨hr, -, h⟩⟩ := roundWithAccuracy_eq .positive a ht (by omega)
  all_goals
    rw [h]
    trivial

theorem AtLeast.mono {i j : Int} {u : UnpackedFloat} (h : AtLeast j u) (hij : i ≤ j) :
    AtLeast i u := by
  obtain ⟨m, e, hm, rfl, hnormal, hplace⟩ := h.exists_eq
  exact ⟨hnormal, by omega⟩

/-! ### Products -/

theorem unpacked_mul {x y : Binary64}
    (h : Below 1024 (mul Format.binary64 x.unpacked y.unpacked)) :
    (x * y).unpacked = mul Format.binary64 x.unpacked y.unpacked :=
  unpacked_apply (fun _ _ => rfl) (fun _ => rfl) (fun u => by cases u <;> rfl) h

/-- A mantissa of 53 bits makes a product long enough to be rounded as it is. -/
theorem le_log2_mul {m₁ m₂ : Nat} (h₁ : 0 < m₁) (hm₂ : 2 ^ 52 ≤ m₂) : 52 ≤ (m₁ * m₂).log2 := by
  have hle : 1 * m₂ ≤ m₁ * m₂ := Nat.mul_le_mul_right m₂ h₁
  exact (Nat.le_log2 (by omega)).2 (by omega)

theorem log2_mul_lt {m₁ m₂ : Nat} (h₁ : 0 < m₁) (h₂ : 0 < m₂) (hm₁ : m₁ < 2 ^ 53)
    (hm₂ : m₂ < 2 ^ 53) : (m₁ * m₂).log2 < 106 := by
  have hlt : m₁ * m₂ < 2 ^ 53 * 2 ^ 53 := Nat.mul_lt_mul_of_lt_of_lt hm₁ hm₂
  exact (Nat.log2_lt (Nat.mul_pos h₁ h₂).ne').2 hlt

section Product

variable {i j k l : Int} {u v : UnpackedFloat}

/-- A product stays below the product of the bounds. -/
theorem below_mul (hu : Below k u) (hv : AtLeast j v) (hv' : Below l v) (hkl : -1021 ≤ k + l) :
    Below (k + l + 1) (mul Format.binary64 u v) := by
  obtain ⟨m₂, e₂, h₂, rfl, hm₂, -⟩ := hv.exists_eq
  cases u with
  | notANumber => trivial
  | infinity s => exact hu.elim
  | zero s => trivial
  | finite s₁ m₁ e₁ h₁ =>
    have hlog := log2_mul_lt h₁ h₂ hu.1 hv'.1
    have hk := hu.2.2.2
    have hl := hv'.2.2.2
    exact below_roundWithAccuracy _ .exact hkl (by omega) (.inl (le_log2_mul h₁ hm₂))

theorem nonnegative_mul (hu : Nonnegative u) (hv : AtLeast j v) :
    Nonnegative (mul Format.binary64 u v) := by
  obtain ⟨m₂, e₂, h₂, rfl, hm₂, -⟩ := hv.exists_eq
  obtain ⟨s, rfl⟩ | ⟨m₁, e₁, h₁, rfl⟩ := hu.exists_eq
  · trivial
  · exact nonnegative_roundWithAccuracy .exact (.inl (le_log2_mul h₁ hm₂))

/-- A product is at least as great as the product of the lower bounds. -/
theorem atLeast_mul (hu : AtLeast i u) (hv : AtLeast j v) (hij : -1021 ≤ i + j - 1) :
    AtLeast (i + j - 1) (mul Format.binary64 u v) := by
  obtain ⟨m₁, e₁, h₁, rfl, hm₁, hi⟩ := hu.exists_eq
  obtain ⟨m₂, e₂, h₂, rfl, hm₂, hj⟩ := hv.exists_eq
  have hlow : 104 ≤ (m₁ * m₂).log2 := by
    have hle : 2 ^ 52 * 2 ^ 52 ≤ m₁ * m₂ := Nat.mul_le_mul hm₁ hm₂
    exact (Nat.le_log2 (Nat.mul_pos h₁ h₂).ne').2 hle
  exact atLeast_roundWithAccuracy .exact hij (by omega) (by omega)

end Product

/-! ### Quotients -/

section Quotient

variable {i j k l : Int} {u v : UnpackedFloat}

theorem nonnegative_div (hu : Nonnegative u) (hv : AtLeast j v) (hv' : Below l v) :
    Nonnegative (div Format.binary64 u v) := by
  obtain ⟨m₂, e₂, h₂, rfl, hm₂, -⟩ := hv.exists_eq
  obtain ⟨s, rfl⟩ | ⟨m₁, e₁, h₁, rfl⟩ := hu.exists_eq
  · trivial
  · obtain ⟨i, t, a, hdiv, -, hlong⟩ := exists_div_eq .positive e₁ e₂ h₁ h₂ hm₂ hv'.1
    rw [hdiv]
    exact nonnegative_roundWithAccuracy a hlong

/-- A quotient is at least as great as the lower bound of the numerator by the bound of the
denominator. -/
theorem atLeast_div (hu : AtLeast i u) (hu' : Below k u) (hv : AtLeast j v) (hv' : Below l v)
    (hil : -1021 ≤ i - l) : AtLeast (i - l) (div Format.binary64 u v) := by
  obtain ⟨m₁, e₁, h₁, rfl, hm₁, hi⟩ := hu.exists_eq
  obtain ⟨m₂, e₂, h₂, rfl, hm₂, -⟩ := hv.exists_eq
  have hlog : m₁.log2 = 52 := (Nat.log2_eq_iff (by omega)).2 ⟨hm₁, hu'.1⟩
  have hl := hv'.2.2.2
  obtain ⟨c, t, a, hdiv, ht, hlong⟩ := exists_div_eq .positive e₁ e₂ h₁ h₂ hm₂ hv'.1
  have hshift := log2_shiftLeft h₁.ne' c
  have hplaces : 1 ≤ c := by
    rcases hlong with hlong | hend
    · have hne : m₁ <<< c / m₂ ≠ 0 := by
        intro hzero
        rw [hzero] at hlong
        exact absurd hlong (by decide)
      have hcut := log2_div_le hm₂ hne
      omega
    · omega
  have hlow : c - 1 ≤ (m₁ <<< c / m₂).log2 := le_log2_div h₂ hv'.1 (by omega)
  rw [hdiv]
  exact atLeast_roundWithAccuracy a hil (by omega) (by omega)

end Quotient

/-! ### What is left of one -/

/-- The parts of one. -/
theorem unpacked_one : one.unpacked = .finite .positive (2 ^ 52) (-52) (by decide) := by
  rfl

theorem bounds_one : AtLeast 1 one.unpacked ∧ Below 1 one.unpacked := by
  rw [unpacked_one]
  exact ⟨⟨by decide, by decide⟩, by decide, by decide, by decide, by decide⟩

/-- A number below one leaves at least `2 ^ -53` of one. -/
theorem atLeast_one_sub {u : UnpackedFloat} (hu : Nonnegative u) (hu' : Below 0 u) :
    AtLeast (-52) (sub Format.binary64 one.unpacked u) := by
  rw [unpacked_one]
  obtain ⟨s, rfl⟩ | ⟨m, e, hm, rfl⟩ := hu.exists_eq
  · exact ⟨by decide, by decide⟩
  · obtain ⟨hlt, -, -, hplace⟩ := hu'
    obtain ⟨k, hk⟩ : ∃ k : Nat, (k : Int) = -53 - e := ⟨(-53 - e).toNat, by omega⟩
    have hmin : min (-52) e = e := by omega
    have hone : (-52 - e).toNat = 1 + k := by omega
    have hzero : (e - e).toNat = 0 := by omega
    -- In units of the last place, one is `2 ^ (53 + k)`, and less than `2 ^ 53` is taken from it.
    have hpos := Nat.two_pow_pos k
    have hleft : 2 ^ k + m ≤ 2 ^ 52 <<< (1 + k) := by
      rw [Nat.shiftLeft_eq, Nat.pow_add 2 1 k]
      omega
    obtain ⟨d, hd⟩ : ∃ d, 2 ^ 52 <<< (1 + k) = d + m := ⟨2 ^ 52 <<< (1 + k) - m, by omega⟩
    have hlog : k ≤ d.log2 := (Nat.le_log2 (by omega)).2 (by omega)
    have hdifference : (Sign.positive.apply ((2 ^ 52 <<< (1 + k) : Nat) : Int) -
        Sign.positive.apply ((m <<< 0 : Nat) : Int)) = (d : Int) := by
      simp only [Sign.apply, Nat.shiftLeft_zero]
      omega
    show AtLeast (-52) (UnpackedFloat.normalize Format.binary64
      (Sign.positive.apply ((2 ^ 52 <<< (-52 - min (-52) e).toNat : Nat) : Int) -
        Sign.positive.apply ((m <<< (e - min (-52) e).toNat : Nat) : Int)) (min (-52) e) .positive)
    rw [hmin, hone, hzero, hdifference, UnpackedFloat.normalize, Int.compare_eq_gt.2 (by omega)]
    show AtLeast (-52) (UnpackedFloat.round Format.binary64 .positive d e)
    exact atLeast_round (by omega) (by omega) (by omega)

/-! ### Bits -/

/-- A lower bound on the bits is one on the parts. -/
theorem atLeast_unpacked {x : Binary64} {j : Nat} (hsign : x.isNegative = false)
    (hfinite : x.isFinite = true) (h : (1022 + j) * fractionWeight ≤ x.magnitude) :
    AtLeast j x.unpacked := by
  have hmagnitude := of_decide_eq_true hfinite
  have hexponent := exponent_eq_magnitude_div x
  simp only [infinityMagnitude, fractionWeight] at hmagnitude h
  rw [unpacked, UnpackedFloat.unpack]
  simp only
  rw [if_neg (mt exponent_eq_ones_iff.1 (by omega)), if_neg (mt bitVec_eq_zero_iff.1 (by omega)),
    unpackSign_eq_zero hsign]
  refine ⟨?_, ?_⟩
  · rw [toNat_append_one]
    omega
  · rw [hexponent]
    show (j : Int) ≤ _ - (1023 + 52) + 53
    omega

theorem isNaN_of_unpacked {x : Binary64} (hx : x.unpacked ≠ .notANumber) : x.isNaN = false :=
  Bool.eq_false_iff.2 fun hnan => hx (unpacked_of_isNaN hnan)

/-- Bounds on the parts make a number positive and finite. -/
theorem isPositiveFinite_of_bounds {x : Binary64} {j k : Int} (hleast : AtLeast j x.unpacked)
    (hbelow : Below k x.unpacked) : x.isPositiveFinite = true := by
  obtain ⟨m, e, hm, hparts, -⟩ := hleast.exists_eq
  have hnan : x.isNaN = false := isNaN_of_unpacked (by rw [hparts]; simp)
  have hfinite := (isFinite_or_isNaN hbelow).resolve_right (Bool.eq_false_iff.1 hnan)
  have hvalue : 0 < x.value := by
    rw [← (value_unpacked hfinite).2, hparts, unpackedValue_pos_iff]
  rw [value] at hvalue
  rw [isPositiveFinite_iff]
  split_ifs at hvalue with hsign
  · omega
  · refine ⟨Bool.eq_false_iff.2 hsign, Nat.pos_of_ne_zero ?_, of_decide_eq_true hfinite⟩
    intro hzero
    rw [hzero] at hvalue
    exact absurd hvalue (by decide)

/-! ### Natural numbers -/

/-- Rounding a positive natural number of 64 bits gives a number from one to `2 ^ 65`. -/
theorem bounds_ofNat {n : Nat} (hpos : 0 < n) (hn : n < UInt64.size) :
    AtLeast 1 (ofNat n).unpacked ∧ Below 65 (ofNat n).unpacked := by
  obtain ⟨hlt, hsign⟩ := magnitude_ofNat_lt hn
  have hfinite : (ofNat n).isFinite = true :=
    decide_eq_true (Nat.lt_of_lt_of_le hlt (by decide))
  have hle : (1022 + 1) * fractionWeight ≤ (ofNat n).magnitude := by
    have hsmall : nearestMagnitude n 1 < signWeight :=
      Nat.lt_of_le_of_lt (nearestMagnitude_one_le hn) (by decide)
    rw [ofNat, nearest, magnitude_ofMagnitude hsmall]
    exact le_nearestMagnitude_one hpos hn
  exact ⟨atLeast_unpacked (j := 1) hsign hfinite hle, below_unpacked (k := 65) (by omega) hlt⟩

/-! ### Zero -/

theorem ofNat_zero : ofNat 0 = zero := by
  decide +kernel

theorem unpacked_zero : zero.unpacked = .zero .positive := rfl

theorem mul_zero_unpacked {u : UnpackedFloat} (hu : Nonnegative u) (s : Sign) :
    ∃ s', mul Format.binary64 u (.zero s) = .zero s' := by
  obtain ⟨s₁, rfl⟩ | ⟨m, e, hm, rfl⟩ := hu.exists_eq
  · exact ⟨_, rfl⟩
  · exact ⟨_, rfl⟩

/-- Zero by a positive number is zero. -/
theorem zero_div_eq_zero {x : Binary64} {j : Int} (hx : AtLeast j x.unpacked) :
    zero / x = zero := by
  obtain ⟨m, e, hm, hparts, -⟩ := hx.exists_eq
  have hnan : x.isNaN = false := isNaN_of_unpacked (by rw [hparts]; simp)
  have hdiv : zero / x = ofUnpacked (div Format.binary64 zero.unpacked x.unpacked) :=
    apply_eq_ofUnpacked (fun _ _ => rfl) (by decide) hnan
  rw [hdiv, hparts]
  show ofUnpacked (.zero .positive) = zero
  decide +kernel

end FullText.Binary64
