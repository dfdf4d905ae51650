import FullText.Binary64.Numeral
import FullText.Binary64.Shortest
import Mathlib.Tactic.Ring
import Mathlib.Tactic.SplitIfs

/-!
# The nearest number

Magnitudes are ordered as the values they stand for, and so are the midpoints between neighbours.
Hence a fraction rounds beyond all magnitudes up to a certain one and not beyond that one, and the
bisection finds it. The nearest magnitude depends on the value of the fraction only, not on how it
is written.

## Main results

* `Binary64.ofMagnitude_magnitude` : a number is its sign and its magnitude.
* `Binary64.units_strictMono` : greater magnitudes stand for greater values.
* `Binary64.nearestMagnitude_eq` : the nearest magnitude, from the place where rounding beyond ends.
* `Binary64.nearestMagnitude_spec` : a fraction does not round beyond its nearest magnitude, which
  is at most any other one with this property.
* `Binary64.nearestMagnitude_congr` : equal fractions have the same nearest magnitude.
* `Binary64.magnitude_ofNat_lt` : a natural number of 64 bits is below `2 ^ 65` when rounded.
-/

namespace FullText.Binary64

/-! ### Sign and magnitude -/

theorem magnitude_lt (x : Binary64) : x.magnitude < signWeight :=
  Nat.mod_lt _ (by decide)

theorem toNat_ofMagnitude {negative : Bool} {m : Nat} (hm : m < signWeight) :
    (ofMagnitude negative m).bits.toNat = (if negative then signWeight else 0) + m := by
  have hweight : signWeight = 2 ^ 63 := by decide
  cases negative with
  | false =>
    show (UInt64.ofNat m).toNat = 0 + m
    rw [UInt64.toNat_ofNat']
    omega
  | true =>
    show (UInt64.ofNat (signWeight + m)).toNat = signWeight + m
    rw [UInt64.toNat_ofNat']
    omega

theorem magnitude_ofMagnitude {negative : Bool} {m : Nat} (hm : m < signWeight) :
    (ofMagnitude negative m).magnitude = m := by
  rw [magnitude, toNat_ofMagnitude hm]
  cases negative with
  | false =>
    show (0 + m) % signWeight = m
    rw [Nat.zero_add, Nat.mod_eq_of_lt hm]
  | true =>
    show (signWeight + m) % signWeight = m
    rw [Nat.add_mod_left, Nat.mod_eq_of_lt hm]

theorem isNegative_ofMagnitude {negative : Bool} {m : Nat} (hm : m < signWeight) :
    (ofMagnitude negative m).isNegative = negative := by
  rw [isNegative, toNat_ofMagnitude hm]
  cases negative with
  | false =>
    refine decide_eq_false ?_
    show ¬ signWeight ≤ 0 + m
    omega
  | true =>
    refine decide_eq_true ?_
    show signWeight ≤ signWeight + m
    omega

/-- A number is its sign and its magnitude. -/
theorem ofMagnitude_magnitude (x : Binary64) : ofMagnitude x.isNegative x.magnitude = x := by
  have hbits : x.bits.toNat < UInt64.size := x.bits.toNat_lt
  have hsize : UInt64.size = 2 * signWeight := by decide
  have hmagnitude : x.magnitude = x.bits.toNat % signWeight := rfl
  have hdivision := Nat.div_add_mod x.bits.toNat signWeight
  have hvalue : (ofMagnitude x.isNegative x.magnitude).bits.toNat = x.bits.toNat := by
    rw [toNat_ofMagnitude x.magnitude_lt, hmagnitude]
    cases hsign : x.isNegative with
    | false =>
      have := of_decide_eq_false hsign
      rw [Nat.mod_eq_of_lt (by omega)]
      exact Nat.zero_add _
    | true =>
      have := of_decide_eq_true hsign
      rw [Nat.mod_eq_sub_mod (by omega), Nat.mod_eq_of_lt (by omega)]
      show signWeight + (x.bits.toNat - signWeight) = x.bits.toNat
      omega
  cases x
  exact congrArg Binary64.mk (UInt64.toNat_inj.1 hvalue)

/-- A number is finite and greater than zero if it has no sign and a finite magnitude other than
zero. -/
theorem isPositiveFinite_iff {x : Binary64} : x.isPositiveFinite = true ↔
    x.isNegative = false ∧ 0 < x.magnitude ∧ x.magnitude < infinityMagnitude := by
  have hzero : zero.orderKey = 0 := by decide
  have hnumber : zero.isNaN = false := by decide
  rw [isPositiveFinite, less, hnumber, hzero, isFinite, isNaN, orderKey]
  simp only [Bool.and_eq_true, Bool.not_eq_true', decide_eq_true_eq, decide_eq_false_iff_not]
  cases x.isNegative with
  | false =>
    simp only [if_neg Bool.false_ne_true, true_and]
    omega
  | true =>
    simp only [if_true, reduceCtorEq, false_and, iff_false]
    omega

/-! ### Magnitudes and their values -/

theorem units_lt_succ (m : Nat) : units m < units (m + 1) := by
  have hweight : 0 < fractionWeight := by decide
  by_cases hsmall : m + 1 < fractionWeight
  · rw [units, if_pos (by omega), units, if_pos hsmall]
    exact Nat.lt_succ_self m
  rw [units, units, if_neg hsmall]
  by_cases hbound : m < fractionWeight
  · obtain hm : m + 1 = fractionWeight := by omega
    rw [if_pos hbound, hm, Nat.mod_self, Nat.div_self hweight]
    show m < fractionWeight
    exact hbound
  rw [if_neg hbound]
  have hq : 1 ≤ m / fractionWeight := (Nat.le_div_iff_mul_le hweight).2 (by omega)
  have hdecompose := Nat.div_add_mod m fractionWeight
  have hfraction := Nat.mod_lt m hweight
  by_cases hcarry : m % fractionWeight + 1 < fractionWeight
  · have hmod : (m + 1) % fractionWeight = m % fractionWeight + 1 := by
      rw [Nat.add_mod, Nat.mod_eq_of_lt (show 1 < fractionWeight by decide),
        Nat.mod_eq_of_lt hcarry]
    have hdiv : (m + 1) / fractionWeight = m / fractionWeight := by
      rw [Nat.succ_div_of_mod_ne_zero (by omega)]
    rw [hmod, hdiv, Nat.shiftLeft_eq, Nat.shiftLeft_eq]
    exact Nat.mul_lt_mul_of_pos_right (by omega) (Nat.two_pow_pos _)
  · have hnext : m + 1 = fractionWeight * (m / fractionWeight + 1) := by
      rw [Nat.mul_add, Nat.mul_one]
      omega
    have hmod : (m + 1) % fractionWeight = 0 := by rw [hnext, Nat.mul_mod_right]
    have hdiv : (m + 1) / fractionWeight = m / fractionWeight + 1 := by
      rw [hnext, Nat.mul_div_cancel_left _ hweight]
    obtain ⟨q, hq'⟩ : ∃ q, m / fractionWeight = q + 1 := ⟨m / fractionWeight - 1, by omega⟩
    rw [hmod, hdiv, hq', Nat.shiftLeft_eq, Nat.shiftLeft_eq, Nat.add_sub_cancel,
      Nat.add_sub_cancel, Nat.pow_succ]
    have hpos := Nat.two_pow_pos q
    calc (fractionWeight + m % fractionWeight) * 2 ^ q
        < (2 * fractionWeight) * 2 ^ q := Nat.mul_lt_mul_of_pos_right (by omega) hpos
      _ = (fractionWeight + 0) * (2 ^ q * 2) := by ring

theorem units_strictMono {m n : Nat} (h : m < n) : units m < units n := by
  induction n with
  | zero => omega
  | succ n ih =>
    have hstep := units_lt_succ n
    rcases Nat.lt_succ_iff_lt_or_eq.1 h with hlt | rfl
    · exact Nat.lt_trans (ih hlt) hstep
    · exact hstep

theorem midpoint_strictMono {m n : Nat} (h : m < n) : midpoint m < midpoint n :=
  Nat.add_lt_add (units_strictMono h) (units_strictMono (Nat.succ_lt_succ h))

theorem units_mul_fractionWeight {k : Nat} (hk : 0 < k) :
    units (k * fractionWeight) = fractionWeight <<< (k - 1) := by
  have hle : ¬ k * fractionWeight < fractionWeight :=
    Nat.not_lt.2 (Nat.le_mul_of_pos_left fractionWeight hk)
  rw [units, if_neg hle, Nat.mul_mod_left, Nat.mul_div_cancel _ (by decide), Nat.add_zero]

/-! ### The nearest magnitude -/

theorem roundsBeyond_of_lt {num den i j : Nat} (hden : 0 < den) (hij : i < j)
    (hj : roundsBeyond num den j = true) : roundsBeyond num den i = true := by
  have hlt : midpoint i * den < midpoint j * den :=
    Nat.mul_lt_mul_of_pos_right (midpoint_strictMono hij) hden
  have hle : midpoint j * den ≤ 2 * num := by
    rw [roundsBeyond, Bool.or_eq_true, Bool.and_eq_true, decide_eq_true_eq, decide_eq_true_eq] at hj
    omega
  rw [roundsBeyond, Bool.or_eq_true, decide_eq_true_eq]
  exact .inl (by omega)

/-- The nearest magnitude is the one that the fraction does not round beyond, while it rounds beyond
the one before. -/
theorem nearestMagnitude_eq {num den m : Nat} (hden : 0 < den) (hm : m ≤ infinityMagnitude)
    (hhere : roundsBeyond (num * unitsPerOne) den m = false)
    (hbefore : ∀ i < m, roundsBeyond (num * unitsPerOne) den i = true) :
    nearestMagnitude num den = m := by
  refine bisect_eq_of_monotone (fun i => ?_) (Nat.zero_le m) hm (by decide)
  by_cases hi : i < m
  · rw [hbefore i hi, decide_eq_true hi]
  · rw [decide_eq_false hi]
    rcases Nat.eq_or_lt_of_le (Nat.not_lt.1 hi) with rfl | hlt
    · exact hhere
    · by_contra h
      rw [roundsBeyond_of_lt hden hlt (by simpa using h)] at hhere
      cases hhere

/-- The nearest magnitude is one that the fraction does not round beyond, and not greater than any
other one. -/
theorem nearestMagnitude_spec {num den m : Nat} (hden : 0 < den) (hm : m ≤ infinityMagnitude)
    (hhere : roundsBeyond (num * unitsPerOne) den m = false) :
    nearestMagnitude num den ≤ m ∧
      roundsBeyond (num * unitsPerOne) den (nearestMagnitude num den) = false := by
  induction m with
  | zero =>
    rw [nearestMagnitude_eq hden hm hhere fun i hi => by omega]
    exact ⟨Nat.le_refl 0, hhere⟩
  | succ m ih =>
    cases hbefore : roundsBeyond (num * unitsPerOne) den m with
    | false =>
      obtain ⟨hle, hnearest⟩ := ih (by omega) hbefore
      exact ⟨Nat.le_succ_of_le hle, hnearest⟩
    | true =>
      have heq : nearestMagnitude num den = m + 1 := by
        refine nearestMagnitude_eq hden hm hhere fun i hi => ?_
        rcases Nat.lt_succ_iff_lt_or_eq.1 hi with hlt | rfl
        · exact roundsBeyond_of_lt hden hlt hbefore
        · exact hbefore
      rw [heq]
      exact ⟨Nat.le_refl _, hhere⟩

/-- A magnitude that the fraction rounds beyond is less than the nearest one. -/
theorem lt_nearestMagnitude {num den m n : Nat} (hden : 0 < den) (hn : n ≤ infinityMagnitude)
    (hhere : roundsBeyond (num * unitsPerOne) den n = false)
    (hm : roundsBeyond (num * unitsPerOne) den m = true) : m < nearestMagnitude num den := by
  have hnearest := (nearestMagnitude_spec hden hn hhere).2
  refine Nat.lt_of_not_le fun hle => ?_
  rcases Nat.eq_or_lt_of_le hle with heq | hlt
  · rw [heq, hm] at hnearest
    cases hnearest
  · rw [roundsBeyond_of_lt hden hlt hm] at hnearest
    cases hnearest

/-- The nearest magnitude depends on the value of the fraction only. -/
theorem nearestMagnitude_congr {num den num' den' : Nat} (hden : 0 < den) (hden' : 0 < den')
    (h : num * den' = num' * den) : nearestMagnitude num den = nearestMagnitude num' den' := by
  have hbeyond (i : Nat) : roundsBeyond (num * unitsPerOne) den i =
      roundsBeyond (num' * unitsPerOne) den' i := by
    have hscale : 2 * (num * unitsPerOne) * den' = 2 * (num' * unitsPerOne) * den := by
      calc 2 * (num * unitsPerOne) * den' = 2 * unitsPerOne * (num * den') := by ring
        _ = 2 * (num' * unitsPerOne) * den := by rw [h]; ring
    have hlt : midpoint i * den < 2 * (num * unitsPerOne) ↔
        midpoint i * den' < 2 * (num' * unitsPerOne) := by
      rw [← Nat.mul_lt_mul_right hden', hscale, Nat.mul_right_comm, Nat.mul_lt_mul_right hden]
    have heq : midpoint i * den = 2 * (num * unitsPerOne) ↔
        midpoint i * den' = 2 * (num' * unitsPerOne) := by
      rw [← Nat.mul_left_inj hden'.ne', hscale, Nat.mul_right_comm, Nat.mul_left_inj hden.ne']
    rw [roundsBeyond, roundsBeyond, decide_eq_decide.2 hlt, decide_eq_decide.2 heq]
  exact congrArg (fun p => bisect p 63 0 infinityMagnitude) (funext hbeyond)

/-! ### Natural numbers -/

/-- A natural number of 64 bits does not round beyond `2 ^ 64`. -/
theorem roundsBeyond_one {n : Nat} (hn : n < UInt64.size) :
    roundsBeyond (n * unitsPerOne) 1 ((1023 + 64) * fractionWeight) = false := by
  have hunits : units ((1023 + 64) * fractionWeight) = UInt64.size * unitsPerOne := by
    have hweight : fractionWeight = 1 <<< 52 := by decide
    have hsize : UInt64.size = 2 ^ 64 := rfl
    rw [units_mul_fractionWeight (by decide), hweight, ← Nat.shiftLeft_add, unitsPerOne, hsize,
      Nat.mul_comm, ← Nat.shiftLeft_eq, ← Nat.shiftLeft_add]
  have hvalue := Nat.mul_le_mul_right unitsPerOne (Nat.le_of_lt hn)
  rw [← hunits] at hvalue
  have hnext := units_lt_succ ((1023 + 64) * fractionWeight)
  have hbeyond : 2 * (n * unitsPerOne) < midpoint ((1023 + 64) * fractionWeight) * 1 := by
    rw [midpoint, Nat.mul_one]
    omega
  rw [roundsBeyond, Bool.or_eq_false_iff, Bool.and_eq_false_iff, decide_eq_false_iff_not,
    decide_eq_false_iff_not]
  omega

theorem nearestMagnitude_one_le {n : Nat} (hn : n < UInt64.size) :
    nearestMagnitude n 1 ≤ (1023 + 64) * fractionWeight :=
  (nearestMagnitude_spec Nat.one_pos (by decide) (roundsBeyond_one hn)).1

/-- The magnitude of one is reached by all natural numbers but zero. -/
theorem le_nearestMagnitude_one {n : Nat} (hpos : 0 < n) (hn : n < UInt64.size) :
    1023 * fractionWeight ≤ nearestMagnitude n 1 := by
  obtain ⟨m, hm⟩ : ∃ m, m + 1 = 1023 * fractionWeight := ⟨1023 * fractionWeight - 1, by decide⟩
  have hone : units (m + 1) = unitsPerOne := by
    have hweight : fractionWeight = 1 <<< 52 := by decide
    rw [hm, units_mul_fractionWeight (by decide), hweight, ← Nat.shiftLeft_add, unitsPerOne]
  have hnext := units_lt_succ m
  have hvalue : 1 * unitsPerOne ≤ n * unitsPerOne := Nat.mul_le_mul_right unitsPerOne hpos
  have hbeyond : roundsBeyond (n * unitsPerOne) 1 m = true := by
    rw [roundsBeyond, Bool.or_eq_true, decide_eq_true_iff, midpoint, Nat.mul_one]
    omega
  rw [← hm]
  exact lt_nearestMagnitude Nat.one_pos (by decide) (roundsBeyond_one hn) hbeyond

/-- Rounding a natural number of 64 bits gives a number below `2 ^ 65` without sign. -/
theorem magnitude_ofNat_lt {n : Nat} (hn : n < UInt64.size) :
    (ofNat n).magnitude < (1023 + 65) * fractionWeight ∧ (ofNat n).isNegative = false := by
  have hle := nearestMagnitude_one_le hn
  have hlt : nearestMagnitude n 1 < signWeight := Nat.lt_of_le_of_lt hle (by decide)
  refine ⟨?_, isNegative_ofMagnitude hlt⟩
  rw [ofNat, nearest, magnitude_ofMagnitude hlt]
  exact Nat.lt_of_le_of_lt hle (by decide)

end FullText.Binary64
