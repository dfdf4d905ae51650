import FullText.Proofs.NearestNumber

/-!
# The shortest decimal reads back

The search for the shortest decimal ends at one that rounds to the number that is written. It cannot
pass a place at which the step between decimals is less than half of the least distance of two
numbers, so it stays within a few hundred places. This bounds the number of digits as well.

## Main results

* `Binary64.nearestMagnitude_of_readsBack` : what reads back has the number as its nearest.
* `Binary64.shortest_spec` : the shortest decimal reads back, and its place is within bounds.
* `Binary64.digits_le_of_readsBack` : such a decimal has a bounded number of digits.
-/

namespace FullText.Binary64

/-! ### Decimals that read back -/

theorem lowered_eq (e : Int) : lowered e = 10 ^ (-e).toNat := rfl

theorem raised_eq (digits : Nat) (e : Int) : raised digits e = digits * 10 ^ e.toNat := rfl

theorem lowered_pos (e : Int) : 0 < lowered e := Nat.pow_pos (by decide)

/-- A decimal reads back if it lies between the two midpoints next to the magnitude. The midpoints
themselves count if the magnitude is even. -/
theorem readsBack_iff {m digits : Nat} {e : Int} : readsBack m digits e = true ↔
    (midpoint (m - 1) * lowered e < 2 * (raised digits e * unitsPerOne) ∨
      (midpoint (m - 1) * lowered e = 2 * (raised digits e * unitsPerOne) ∧ m % 2 = 0)) ∧
    (2 * (raised digits e * unitsPerOne) < midpoint m * lowered e ∨
      (2 * (raised digits e * unitsPerOne) = midpoint m * lowered e ∧ m % 2 = 0)) := by
  rw [readsBack]
  split_ifs with heven
  · rw [Bool.and_eq_true, decide_eq_true_eq, decide_eq_true_eq]
    omega
  · rw [Bool.and_eq_true, decide_eq_true_eq, decide_eq_true_eq]
    omega

/-- **A decimal that reads back has the magnitude it reads back as its nearest.** -/
theorem nearestMagnitude_of_readsBack {m digits : Nat} {e : Int} (hpos : 0 < m)
    (hm : m ≤ infinityMagnitude) (h : readsBack m digits e = true) :
    nearestMagnitude (raised digits e) (lowered e) = m := by
  obtain ⟨hlow, hhigh⟩ := readsBack_iff.1 h
  have hbefore : roundsBeyond (raised digits e * unitsPerOne) (lowered e) (m - 1) = true := by
    rw [roundsBeyond, Bool.or_eq_true, Bool.and_eq_true, decide_eq_true_eq, decide_eq_true_eq,
      beq_iff_eq]
    omega
  refine nearestMagnitude_eq (lowered_pos e) hm ?_ fun i hi => ?_
  · rw [roundsBeyond, Bool.or_eq_false_iff, Bool.and_eq_false_iff, decide_eq_false_iff_not,
      decide_eq_false_iff_not, beq_eq_false_iff_ne]
    omega
  · rcases Nat.eq_or_lt_of_le (Nat.le_sub_one_of_lt hi) with rfl | hlt
    · exact hbefore
    · exact roundsBeyond_of_lt (lowered_pos e) hlt hbefore

theorem readsBack_of_digitsAt? {tie : TieRule} {m digits : Nat} {e : Int}
    (h : digitsAt? tie m e = some digits) : readsBack m digits e = true := by
  rw [digitsAt?] at h
  split_ifs at h with hupper hlower
  · rw [← Option.some.inj h]
    exact (Bool.and_eq_true_iff.1 hupper).1
  · rw [← Option.some.inj h]
    exact hlower

/-- The number of binary places of a unit. -/
def unitPlaces : Nat := 1074

theorem unitsPerOne_eq : unitsPerOne = 2 ^ unitPlaces := Nat.one_shiftLeft unitPlaces

theorem unitsPerOne_pos : 0 < unitsPerOne := by
  rw [unitsPerOne_eq]
  exact Nat.two_pow_pos unitPlaces

theorem two_pow_le_ten_pow {j k : Nat} (h : j ≤ 3 * k) : 2 ^ j ≤ 10 ^ k :=
  calc 2 ^ j ≤ 2 ^ (3 * k) := Nat.pow_le_pow_right (by decide) h
    _ = (2 ^ 3) ^ k := Nat.pow_mul 2 3 k
    _ ≤ 10 ^ k := Nat.pow_le_pow_left (by decide) k

/-- A number of decimal places after which the step between decimals is less than half a unit. -/
def finePlaces : Nat := 360

theorem lowered_fine : 2 * unitsPerOne ≤ lowered (-finePlaces) := by
  have hplaces : (-(-(finePlaces : Int))).toNat = finePlaces := by omega
  calc 2 * unitsPerOne = 2 ^ (unitPlaces + 1) := by rw [unitsPerOne_eq, Nat.pow_succ']
    _ ≤ 10 ^ finePlaces := two_pow_le_ten_pow (by decide)
    _ = lowered (-finePlaces) := by rw [lowered_eq, hplaces]

theorem readsBack_floorDigits {m : Nat} (hpos : 0 < m) :
    readsBack m (floorDigits m (-finePlaces)) (-finePlaces) = true := by
  obtain ⟨l, hl⟩ : ∃ l, l = lowered (-finePlaces) := ⟨_, rfl⟩
  have hfine := lowered_fine
  have hstep : raised unitsPerOne (-finePlaces) = unitsPerOne := Nat.mul_one _
  have hdigits : raised (floorDigits m (-finePlaces)) (-finePlaces) * unitsPerOne =
      units m * l / unitsPerOne * unitsPerOne := by
    rw [floorDigits, hstep, hl]
    exact congrArg (· * unitsPerOne) (Nat.mul_one _)
  have hdivision := Nat.div_add_mod' (units m * l) unitsPerOne
  have hremainder := Nat.mod_lt (units m * l) unitsPerOne_pos
  have hlow : midpoint (m - 1) * l + l ≤ 2 * (units m * l) := by
    have hdown : units (m - 1) + 1 ≤ units m := by
      have := units_lt_succ (m - 1)
      rwa [Nat.sub_add_cancel hpos] at this
    rw [midpoint, Nat.sub_add_cancel hpos, Nat.add_mul]
    have := Nat.mul_le_mul_right l hdown
    rw [Nat.add_mul] at this
    omega
  have hhigh : 2 * (units m * l) + l ≤ midpoint m * l := by
    have := Nat.mul_le_mul_right l (Nat.succ_le_of_lt (units_lt_succ m))
    rw [Nat.succ_mul] at this
    rw [midpoint, Nat.add_mul]
    omega
  rw [readsBack_iff, hdigits, ← hl]
  rw [← hl] at hfine
  exact ⟨.inl (by omega), .inl (by omega)⟩

theorem isSome_digitsAt?_fine (tie : TieRule) {m : Nat} (hpos : 0 < m) :
    (digitsAt? tie m (-finePlaces)).isSome = true := by
  rw [digitsAt?, readsBack_floorDigits hpos]
  simp only [if_true]
  split_ifs <;> rfl

/-- The search comes to a decimal that reads back, and not below the place where there always is
one. -/
theorem shortestFrom_spec (tie : TieRule) {m : Nat} (hpos : 0 < m) {steps : Nat} {e : Int}
    (he : -finePlaces ≤ e) (hsteps : e - steps < -finePlaces) :
    readsBack m (shortestFrom tie m steps e).digits (shortestFrom tie m steps e).exponent = true ∧
      -finePlaces ≤ (shortestFrom tie m steps e).exponent ∧
      (shortestFrom tie m steps e).exponent ≤ e := by
  induction steps generalizing e with
  | zero => omega
  | succ steps ih =>
    rw [shortestFrom]
    cases hdigits : digitsAt? tie m e with
    | some digits => exact ⟨readsBack_of_digitsAt? hdigits, he, Int.le_refl e⟩
    | none =>
      simp only
      have hne : e ≠ -finePlaces := by
        rintro rfl
        have := isSome_digitsAt?_fine tie hpos
        rw [hdigits] at this
        cases this
      obtain ⟨hreads, hlow, hhigh⟩ := ih (e := e - 1) (by omega) (by omega)
      exact ⟨hreads, hlow, by omega⟩

/-- The number of binary places before the point of a finite number. -/
def wholePlaces : Nat := 1024

theorem log2_lt_add {n j k : Nat} (hn : n ≠ 0) (h : n < 2 ^ j * 2 ^ k) : n.log2 < j + k := by
  rw [← Nat.pow_add] at h
  exact (Nat.log2_lt hn).2 h

theorem units_infinityMagnitude : units infinityMagnitude = unitsPerOne * 2 ^ wholePlaces := by
  have hmod : infinityMagnitude % fractionWeight = 0 := by decide
  have hdiv : infinityMagnitude / fractionWeight = 2047 := by decide
  have hweight : fractionWeight = 1 <<< 52 := by decide
  have hplaces : 52 + (2047 - 1) = unitPlaces + wholePlaces := by decide
  rw [units, if_neg (by decide), hmod, hdiv, Nat.add_zero, hweight, ← Nat.shiftLeft_add,
    Nat.one_shiftLeft, hplaces, Nat.pow_add, unitsPerOne_eq]

theorem units_le {m : Nat} (hm : m ≤ infinityMagnitude) :
    units m ≤ unitsPerOne * 2 ^ wholePlaces := by
  rw [← units_infinityMagnitude]
  rcases Nat.eq_or_lt_of_le hm with rfl | hlt
  · exact Nat.le_refl _
  · exact Nat.le_of_lt (units_strictMono hlt)

/-- **The shortest decimal reads back,** it has at least one digit other than zero and its place is
within bounds. -/
theorem shortest_spec (tie : TieRule) {m : Nat} (hpos : 0 < m) (hm : m < infinityMagnitude) :
    readsBack m (shortest tie m).digits (shortest tie m).exponent = true ∧
      -finePlaces ≤ (shortest tie m).exponent ∧ (shortest tie m).exponent ≤ 400 := by
  have hlog : (units m).log2 < unitPlaces + wholePlaces := by
    have hunits : units m ≠ 0 := by
      have := units_strictMono hpos
      omega
    have hlt := units_strictMono hm
    rw [units_infinityMagnitude, unitsPerOne_eq] at hlt
    exact log2_lt_add hunits hlt
  have hplace : -finePlaces ≤ startingPlace m ∧ startingPlace m ≤ 400 := by
    rw [unitPlaces, wholePlaces] at hlog
    rw [startingPlace, finePlaces]
    omega
  have hsteps : startingPlace m - (startingPlace m + 1074).toNat < -finePlaces := by
    rw [finePlaces]
    omega
  obtain ⟨hreads, hlow, hhigh⟩ := shortestFrom_spec tie hpos hplace.1 hsteps
  exact ⟨hreads, hlow, Int.le_trans hhigh hplace.2⟩

/-- A number of decimal places before the point that suffices for finite numbers. -/
def wholeDigits : Nat := 342

/-- A number of digits that suffices for every decimal that reads back, as far as its place is not
too low. -/
def digitBound : Nat := wholeDigits + finePlaces

theorem digits_pos_of_readsBack {m digits : Nat} {e : Int}
    (h : readsBack m digits e = true) : 0 < digits := by
  by_contra hzero
  obtain rfl : digits = 0 := by omega
  have hvalue : 2 * (raised 0 e * unitsPerOne) = 0 := by rw [raised]; simp
  have hlow : 0 < midpoint (m - 1) * lowered e := by
    refine Nat.mul_pos ?_ (lowered_pos e)
    rw [midpoint]
    have := units_lt_succ (m - 1)
    omega
  rw [readsBack_iff, hvalue] at h
  omega

/-- Decimals that read back as a finite number and whose place is not too low have few digits. -/
theorem digits_le_of_readsBack {m digits : Nat} {e : Int} (hm : m < infinityMagnitude)
    (he : -finePlaces ≤ e) (h : readsBack m digits e = true) : digits ≤ 10 ^ digitBound := by
  have hhigh : 2 * (raised digits e * unitsPerOne) ≤ midpoint m * lowered e := by
    have hbetween := (readsBack_iff.1 h).2
    omega
  have hmidpoint : midpoint m ≤ 2 * (unitsPerOne * 2 ^ wholePlaces) := by
    have hsum := Nat.add_le_add (units_le (Nat.le_of_lt hm)) (units_le (Nat.succ_le_of_lt hm))
    rwa [← Nat.two_mul] at hsum
  have hplace : lowered e ≤ 10 ^ finePlaces := by
    have : (-e).toNat ≤ finePlaces := by omega
    rw [lowered_eq]
    exact Nat.pow_le_pow_right (by decide) this
  have hraised : digits ≤ raised digits e :=
    Nat.le_mul_of_pos_right digits (Nat.pow_pos (by decide))
  refine Nat.le_of_mul_le_mul_left ?_ unitsPerOne_pos
  have hproduct := Nat.mul_le_mul hmidpoint hplace
  have hwhole : 2 ^ wholePlaces ≤ 10 ^ wholeDigits := two_pow_le_ten_pow (by decide)
  have hscaled := Nat.mul_le_mul_right (10 ^ finePlaces) hwhole
  calc unitsPerOne * digits ≤ raised digits e * unitsPerOne := by
        rw [Nat.mul_comm]
        exact Nat.mul_le_mul_right _ hraised
    _ ≤ unitsPerOne * (2 ^ wholePlaces * 10 ^ finePlaces) := by
        rw [Nat.mul_assoc, Nat.mul_assoc] at hproduct
        omega
    _ ≤ unitsPerOne * 10 ^ digitBound := by
        rw [digitBound, pow_add]
        exact Nat.mul_le_mul_left unitsPerOne hscaled

end FullText.Binary64
