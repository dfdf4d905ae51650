import FullText.Proofs.BoundedArithmetic
import FullText.Proofs.NearestNumber

/-!
# Sums that do not depend on the order

Floating-point addition is commutative but not associative, so the sum of a list of numbers depends
on their order in general. It does not if there are at most two numbers, and it does not if nothing
is ever rounded away: numbers that are multiples of one power of two, with a total of less than
`2 ^ 53` times that power, are added exactly, and an exact result has only one form.

## Main definitions

* `Binary64.sum` : the sum of a list of numbers, from left to right.
* `Binary64.value` : the value of a finite number, in units of `2 ^ -1074`.
* `Binary64.AddExactly` : numbers that are added exactly.
* `Binary64.IsSum` : the parts of an exact sum.

## Main results

* `Binary64.sum_pair` : two numbers may be exchanged.
* `Binary64.IsSum.add` : one exact addition.
* `Binary64.isSum_sum` : a list that adds up exactly.
* `Binary64.sum_eq_of_perm` : **the order of few or exact summands does not matter.**
-/

namespace FullText.Binary64

open Float.Model (UnpackedFloat Format totalExponent)
open Float.Model.UnpackedFloat

/-- The sum of a list of numbers, from left to right. -/
def sum (xs : List Binary64) : Binary64 := xs.foldl (· + ·) zero

/-! ### Addition of parts -/

/-- The number with the given parts. -/
def ofUnpacked (u : UnpackedFloat) : Binary64 := ofFloat (.ofModel (.pack u))

theorem unpacked_ofUnpacked {u : UnpackedFloat} (hu : Below 1024 u ∨ ∃ s, u = .infinity s) :
    (ofUnpacked u).unpacked = u := by
  rcases hu with hu | ⟨s, rfl⟩
  · exact unpacked_ofFloat rfl hu
  · cases s <;> rfl

theorem isNaN_ofUnpacked {u : UnpackedFloat} (hu : Below 1024 u ∨ ∃ s, u = .infinity s)
    (hnumber : u ≠ .notANumber) : (ofUnpacked u).isNaN = false := by
  by_contra hnan
  rw [Bool.not_eq_false] at hnan
  exact hnumber (unpacked_ofUnpacked hu ▸ unpacked_of_isNaN hnan)

/-- Numbers are operands by their parts. -/
theorem apply_eq_ofUnpacked {op : Float → Float → Float}
    {op' : UnpackedFloat → UnpackedFloat → UnpackedFloat} {x y : Binary64}
    (hop : ∀ a b, (op a b) = .ofModel (.pack (op' a.toModel.unpack b.toModel.unpack)))
    (hx : x.isNaN = false) (hy : y.isNaN = false) :
    apply op x y = ofUnpacked (op' x.unpacked y.unpacked) := by
  rw [apply, hx, hy, if_neg Bool.false_ne_true, if_neg Bool.false_ne_true, hop,
    unpack_toModel_toFloat, unpack_toModel_toFloat, ofUnpacked]

/-- Numbers are added by their parts. -/
theorem add_eq_ofUnpacked {x y : Binary64} (hx : x.isNaN = false) (hy : y.isNaN = false) :
    x + y = ofUnpacked (add Format.binary64 x.unpacked y.unpacked) :=
  apply_eq_ofUnpacked (fun _ _ => rfl) hx hy

theorem add_unpacked_comm (u v : UnpackedFloat) :
    add Format.binary64 u v = add Format.binary64 v u := by
  cases u with
  | notANumber => cases v <;> rfl
  | infinity s =>
    cases v with
    | infinity s' => cases s <;> cases s' <;> rfl
    | _ => rfl
  | zero s =>
    cases v with
    | zero s' => cases s <;> cases s' <;> rfl
    | _ => rfl
  | finite s m e h =>
    cases v with
    | finite s' m' e' h' =>
      show UnpackedFloat.normalize _ _ (min e e') _ = UnpackedFloat.normalize _ _ (min e' e) _
      rw [Int.min_comm, Int.add_comm]
    | _ => rfl

/-- Adding a zero changes nothing but zeros. -/
theorem zero_add_unpacked (u : UnpackedFloat) :
    (∃ s, u = .zero s) ∨ ∀ s, add Format.binary64 (.zero s) u = u := by
  cases u with
  | zero s => exact .inl ⟨s, rfl⟩
  | _ => exact .inr fun _ => rfl

/-- Zeros added to the positive zero make the positive zero. -/
theorem zero_add_zero_unpacked (s : Sign) :
    add Format.binary64 (.zero .positive) (.zero s) = .zero .positive := by
  cases s <;> rfl

/-- Two numbers that are added to zero may be exchanged. -/
theorem zero_add_add_unpacked (u v : UnpackedFloat) :
    add Format.binary64 (add Format.binary64 (.zero .positive) u) v =
      add Format.binary64 (add Format.binary64 (.zero .positive) v) u := by
  have hzero := zero_add_zero_unpacked
  rcases zero_add_unpacked u with ⟨s, rfl⟩ | hu <;> rcases zero_add_unpacked v with ⟨s', rfl⟩ | hv
  · simp only [hzero]
  · rw [hzero, hv, add_unpacked_comm v, hv]
  · rw [hzero, hu, add_unpacked_comm u, hu]
  · rw [hu, hv, add_unpacked_comm]

/-! ### Values -/

/-- The value of a finite number, in units of `2 ^ -1074`, the least positive number. -/
def value (x : Binary64) : Int := if x.isNegative then -units x.magnitude else units x.magnitude

/-- The value of the parts of a finite number, in the same units. -/
def unpackedValue : UnpackedFloat → Int
  | .finite s m e _ => s.apply ((m * 2 ^ (e + 1074).toNat : Nat) : Int)
  | _ => 0

/-- The sign of a number is that of its value. -/
theorem value_eq (x : Binary64) :
    x.value = (Sign.ofBitVec (@unpackSign Format.binary64 x.bits.toBitVec)).apply
      (units x.magnitude : Int) := by
  have hlt : x.bits.toNat < 2 ^ 64 := x.bits.toBitVec.isLt
  have hsign : (@unpackSign Format.binary64 x.bits.toBitVec).toNat = x.bits.toNat / 2 ^ 63 % 2 :=
    sign_toNat x.bits.toBitVec
  rw [value]
  cases hnegative : x.isNegative with
  | false =>
    rw [unpackSign_eq_zero hnegative]
    rfl
  | true =>
    have hone : @unpackSign Format.binary64 x.bits.toBitVec = 1#1 := by
      have hle := of_decide_eq_true hnegative
      simp only [signWeight] at hle
      rw [← BitVec.toNat_inj, hsign]
      show _ = 1
      omega
    rw [hone]
    rfl

/-- A finite number is taken apart into parts of the same value. -/
theorem value_unpacked {x : Binary64} (hx : x.isFinite = true) :
    x.unpacked ≠ .notANumber ∧ unpackedValue x.unpacked = x.value := by
  have hfinite := of_decide_eq_true hx
  simp only [infinityMagnitude] at hfinite
  have hexponent := exponent_eq_magnitude_div x
  have hmantissa := mantissa_eq_magnitude_mod x
  have hunits : units x.magnitude = if x.magnitude < 2 ^ 52 then x.magnitude
      else (2 ^ 52 + x.magnitude % 2 ^ 52) <<< (x.magnitude / 2 ^ 52 - 1) := rfl
  have hwidth : ((Format.binary64.exponentBias : Nat) : Int) + ((52 : Nat) : Int) = 1075 := rfl
  rw [value_eq, unpacked, UnpackedFloat.unpack]
  generalize Sign.ofBitVec (@unpackSign Format.binary64 x.bits.toBitVec) = s
  simp only
  rw [if_neg (mt exponent_eq_ones_iff.1 (by omega)), hunits]
  by_cases hsmall : x.magnitude < 2 ^ 52
  · rw [if_pos (bitVec_eq_zero_iff.2 (by omega)), if_pos hsmall]
    by_cases hzero : x.magnitude = 0
    · rw [dif_pos (bitVec_eq_zero_iff.2 (by omega)), hzero]
      exact ⟨by simp, by cases s <;> rfl⟩
    · rw [dif_neg (mt bitVec_eq_zero_iff.1 (by omega))]
      refine ⟨by simp, ?_⟩
      rw [unpackedValue, hwidth, hmantissa, Nat.mod_eq_of_lt hsmall]
      have hplace : ((@unpackExponent Format.binary64 x.bits.toBitVec).toNat - 1075 + 1 +
          1074 : Int).toNat = 0 := by
        omega
      rw [hplace, Nat.pow_zero, Nat.mul_one]
  · rw [if_neg (mt bitVec_eq_zero_iff.1 (by omega)), if_neg hsmall]
    refine ⟨by simp, ?_⟩
    have hplace : ((@unpackExponent Format.binary64 x.bits.toBitVec).toNat - 1075 +
        1074 : Int).toNat = x.magnitude / 2 ^ 52 - 1 := by
      omega
    rw [unpackedValue, hwidth, toNat_append_one, hmantissa, hplace, Nat.shiftLeft_eq]

/-! ### Two numbers -/

theorem unpacked_ne_notANumber {x : Binary64} (hx : x.isNaN = false) :
    x.unpacked ≠ .notANumber := by
  rcases Nat.lt_trichotomy x.magnitude infinityMagnitude with hlt | heq | hgt
  · exact (value_unpacked (decide_eq_true hlt)).1
  · obtain ⟨s, hs⟩ := unpacked_of_eq_infinityMagnitude heq
    rw [hs]
    simp
  · exact absurd hgt (of_decide_eq_false hx)

/-- Zero and a number add up to a number. -/
theorem zero_add_parts {x : Binary64} (hx : x.isNaN = false) :
    (zero + x).isNaN = false ∧
      (zero + x).unpacked = add Format.binary64 (.zero .positive) x.unpacked := by
  obtain ⟨u, hu⟩ : ∃ u, u = add Format.binary64 (.zero .positive) x.unpacked := ⟨_, rfl⟩
  have hparts : zero + x = ofUnpacked u := by
    rw [add_eq_ofUnpacked (by decide) hx, hu]
    rfl
  have hmem : (Below 1024 u ∨ ∃ s, u = .infinity s) ∧ u ≠ .notANumber := by
    rcases zero_add_unpacked x.unpacked with ⟨s, hs⟩ | hzero
    · rw [hu, hs, zero_add_zero_unpacked]
      exact ⟨.inl trivial, by simp⟩
    · rw [hu, hzero]
      exact ⟨x.unpacked_mem, unpacked_ne_notANumber hx⟩
  rw [hparts, ← hu]
  exact ⟨isNaN_ofUnpacked hmem.1 hmem.2, unpacked_ofUnpacked hmem.1⟩

/-- **Two numbers may be exchanged.** -/
theorem sum_pair {x y : Binary64} (hx : x.isNaN = false) (hy : y.isNaN = false) :
    sum [x, y] = sum [y, x] := by
  obtain ⟨hx', hux⟩ := zero_add_parts hx
  obtain ⟨hy', huy⟩ := zero_add_parts hy
  show zero + x + y = zero + y + x
  rw [add_eq_ofUnpacked hx' hy, add_eq_ofUnpacked hy' hx, hux, huy, zero_add_add_unpacked]

/-! ### Exact rounding -/

/-- Nothing is lost where zeros are cut off. -/
theorem shiftRight_exact (q k : Nat) :
    (⟨q * 2 ^ k, false, false⟩ : ExtendedMantissa) >>> k = ⟨q, false, false⟩ := by
  induction k generalizing q with
  | zero => exact congrArg (ExtendedMantissa.mk · false false) (Nat.mul_one q)
  | succ k ih =>
    have hdouble : q * 2 ^ (k + 1) = q * 2 * 2 ^ k := by ring
    have hhalf : (⟨q * 2, false, false⟩ : ExtendedMantissa).shiftRightOne = ⟨q, false, false⟩ := by
      simp [ExtendedMantissa.shiftRightOne]
    rw [hdouble, ← hhalf, ← ih (q * 2)]
    rfl

/-- A mantissa of 53 bits with zeros at all places that do not fit is rounded without loss. -/
theorem roundWithAccuracy_exact (s : Sign) {q k : Nat} {e : Int} (hpos : 0 < q) (hq : q < 2 ^ 53)
    (hplace : max (((q * 2 ^ k).log2 : Int) + 1 + e - 53) (-1074) = e + k) :
    roundWithAccuracy Format.binary64 s (q * 2 ^ k) e .exact = .finite s q (e + k) hpos := by
  have htarget : Format.binary64.targetExponent (totalExponent (q * 2 ^ k) e) = e + k := hplace
  have hfirst : shiftToTargetExponent Format.binary64 (q * 2 ^ k) e .exact =
      (⟨q, false, false⟩, e + k) := by
    have hshift : (e + k - e).toNat = k := by omega
    rw [shiftToTargetExponent, htarget, shiftToExponent, hshift,
      ExtendedMantissa.ofMantissaAndAccuracy]
    simp only [shiftRight_exact]
  have hrounded : (⟨q, false, false⟩ : ExtendedMantissa).roundedMantissa = q := rfl
  rw [roundWithAccuracy]
  simp only [hfirst, hrounded, shiftToTargetExponent_of_lt hq (show -1074 ≤ e + k by omega)]
  exact dif_neg (Nat.ne_of_gt hpos)

/-- The parts of an exact result with a value: those of the positive zero, or a number in canonical
form. -/
structure IsSum (u : UnpackedFloat) (n : Int) : Prop where
  /-- The parts are in canonical form. -/
  below : Below 1024 u
  /-- There is only one zero, and what is not a number does not occur. -/
  number : u = .zero .positive ∨ ∃ s m e hm, u = .finite s m e hm
  /-- The value. -/
  value : unpackedValue u = n

section Places

variable {m n j : Nat} {e : Int} (hvalue : m * 2 ^ (e + 1074).toNat = n * 2 ^ j)

include hvalue

/-- A multiple of a power of two has the same digits at any place up to that power, with zeros added
or cut off. -/
theorem shiftLeft_eq_of_value {t : Int} (he : -1074 ≤ e) (ht : -1074 ≤ t)
    (hj : (t + 1074).toNat ≤ j) :
    m <<< (e - t).toNat = n * 2 ^ (j - (t + 1074).toNat) * 2 ^ (t - e).toNat := by
  refine Nat.eq_of_mul_eq_mul_right (Nat.two_pow_pos (e + 1074).toNat) ?_
  rw [Nat.shiftLeft_eq, Nat.mul_right_comm, hvalue, Nat.mul_assoc, Nat.mul_assoc, Nat.mul_assoc,
    ← Nat.pow_add, ← Nat.pow_add, ← Nat.pow_add]
  congr 2
  omega

theorem log2_add_lt_of_value (hm : 0 < m) (hn : n < 2 ^ 53) :
    m.log2 + (e + 1074).toNat < 53 + j := by
  have hpos : n * 2 ^ j ≠ 0 := by
    rw [← hvalue]
    exact Nat.mul_ne_zero (Nat.ne_of_gt hm) (Nat.ne_of_gt (Nat.two_pow_pos _))
  rw [← log2_shiftLeft (Nat.ne_of_gt hm), Nat.shiftLeft_eq, hvalue, Nat.log2_lt hpos, Nat.pow_add]
  exact Nat.mul_lt_mul_of_pos_right hn (Nat.two_pow_pos j)

/-- A positive number with 53 significant bits is rounded without loss. -/
theorem isSum_round (s : Sign) (hm : 0 < m) (he : -1074 ≤ e) (hn : n < 2 ^ 53) (hj : j ≤ 2044) :
    IsSum (UnpackedFloat.round Format.binary64 s m e)
      (s.apply ((m * 2 ^ (e + 1074).toNat : Nat) : Int)) := by
  obtain ⟨t, ht⟩ : ∃ t : Int, t = max ((m.log2 : Int) + 1 + e - 53) (-1074) := ⟨_, rfl⟩
  have hlog := log2_add_lt_of_value hvalue hm hn
  have hbelow : Below (1023 + 1) (UnpackedFloat.round Format.binary64 s m e) :=
    below_round s (by omega) (by omega) (by omega)
  -- The mantissa at the place `t` is `q`, whether that place is above `e` or below.
  obtain ⟨q, hq⟩ : ∃ q, q = n * 2 ^ (j - (t + 1074).toNat) := ⟨_, rfl⟩
  have hshifted : m <<< (e - t).toNat = q * 2 ^ (t - e).toNat := by
    rw [hq, shiftLeft_eq_of_value hvalue he (by omega) (by omega)]
  have hlogShifted := log2_shiftLeft (Nat.ne_of_gt hm) (e - t).toNat
  have hpos : 0 < q := by
    rw [Nat.pos_iff_ne_zero]
    rintro rfl
    rw [Nat.zero_mul, Nat.shiftLeft_eq] at hshifted
    exact Nat.ne_of_gt (Nat.mul_pos hm (Nat.two_pow_pos _)) hshifted
  have hlogCut := log2_shiftLeft (Nat.ne_of_gt hpos) (t - e).toNat
  rw [Nat.shiftLeft_eq, ← hshifted, hlogShifted] at hlogCut
  have hq53 : q < 2 ^ 53 := (Nat.log2_lt (Nat.ne_of_gt hpos)).1 (by omega)
  have hround : UnpackedFloat.round Format.binary64 s m e = .finite s q t hpos := by
    have htarget : Format.binary64.targetExponent (totalExponent m e) = t := ht.symm
    have hplace : t = e - ((e - t).toNat : Int) + ((t - e).toNat : Int) := by omega
    rw [UnpackedFloat.round, htarget]
    simp only [decreaseExponent]
    rw [hshifted, roundWithAccuracy_exact s hpos hq53]
    · congr 1
      exact hplace.symm
    · rw [← hshifted, hlogShifted, ← hplace]
      omega
  rw [hround] at hbelow ⊢
  refine ⟨hbelow, .inr ⟨s, q, t, hpos, rfl⟩, ?_⟩
  rw [unpackedValue, hvalue, hq, Nat.mul_assoc, ← Nat.pow_add]
  congr 4
  omega

end Places

theorem apply_shiftLeft (s : Sign) (m : Nat) {e t : Int} (ht : t ≤ e) (hlow : -1074 ≤ t) :
    s.apply ((m <<< (e - t).toNat : Nat) : Int) * 2 ^ (t + 1074).toNat =
      s.apply ((m * 2 ^ (e + 1074).toNat : Nat) : Int) := by
  have hplaces : (e + 1074).toNat = (e - t).toNat + (t + 1074).toNat := by omega
  rw [hplaces, Nat.pow_add, Nat.shiftLeft_eq]
  cases s <;> simp only [Sign.apply] <;> push_cast <;> ring

/-- A number with 53 significant bits is rounded without loss. -/
theorem isSum_normalize {m n : Int} {e : Int} {j : Nat} (he : -1074 ≤ e)
    (hn : n.natAbs < 2 ^ 53) (hj : j ≤ 2044) (hvalue : m * 2 ^ (e + 1074).toNat = n * 2 ^ j) :
    IsSum (UnpackedFloat.normalize Format.binary64 m e .positive)
      (m * 2 ^ (e + 1074).toNat) := by
  have habs : m.natAbs * 2 ^ (e + 1074).toNat = n.natAbs * 2 ^ j := by
    simpa [Int.natAbs_mul, Int.natAbs_pow] using congrArg Int.natAbs hvalue
  rcases Int.lt_trichotomy m 0 with hm | rfl | hm
  · have hround := isSum_round habs .negative (by omega) he hn hj
    have hneg : (-m).toNat = m.natAbs := by omega
    have hsign : -(m.natAbs : Int) = m := by omega
    rw [UnpackedFloat.normalize, Int.compare_eq_lt.2 hm, hneg]
    rwa [Sign.apply, Nat.cast_mul, ← Int.neg_mul, hsign, Nat.cast_pow] at hround
  · rw [Int.zero_mul]
    exact ⟨trivial, .inl rfl, rfl⟩
  · have hround := isSum_round habs .positive (by omega) he hn hj
    have hpos : m.toNat = m.natAbs := by omega
    have hsign : (m.natAbs : Int) = m := by omega
    rw [UnpackedFloat.normalize, Int.compare_eq_gt.2 hm, hpos]
    rwa [Sign.apply, Nat.cast_mul, hsign, Nat.cast_pow] at hround

/-- **An exact addition.** The sum of multiples of a power of two has their total as its value if
that is less than `2 ^ 53` times the power. -/
theorem IsSum.add {u v : UnpackedFloat} {a b n : Int} {j : Nat} (hu : IsSum u a)
    (hv : Below 1024 v) (hnumber : v ≠ .notANumber) (hb : unpackedValue v = b)
    (htotal : a + b = n * 2 ^ j) (hn : n.natAbs < 2 ^ 53) (hj : j ≤ 2044) :
    IsSum (UnpackedFloat.add Format.binary64 u v) (a + b) := by
  obtain ⟨hbelow, rfl | ⟨s, m, e, hm, rfl⟩, ha⟩ := hu
  · obtain rfl : a = 0 := ha.symm
    cases v with
    | notANumber => exact absurd rfl hnumber
    | infinity s => exact hv.elim
    | zero s =>
      obtain rfl : b = 0 := hb.symm
      rw [zero_add_zero_unpacked]
      exact ⟨trivial, .inl rfl, rfl⟩
    | finite s m e hm =>
      rw [Int.zero_add]
      exact ⟨hv, .inr ⟨s, m, e, hm, rfl⟩, hb⟩
  · cases v with
    | notANumber => exact absurd rfl hnumber
    | infinity s => exact hv.elim
    | zero s' =>
      obtain rfl : b = 0 := hb.symm
      rw [Int.add_zero]
      exact ⟨hbelow, .inr ⟨s, m, e, hm, rfl⟩, ha⟩
    | finite s' m' e' hm' =>
      have he := hbelow.2.2.1
      have he' := hv.2.2.1
      have hmin : -1074 ≤ min e e' := by omega
      have hsum : (s.apply ((m <<< (e - min e e').toNat : Nat) : Int) +
          s'.apply ((m' <<< (e' - min e e').toNat : Nat) : Int)) *
            2 ^ (min e e' + 1074).toNat = a + b := by
        rw [Int.add_mul, apply_shiftLeft s m (by omega) hmin, apply_shiftLeft s' m' (by omega) hmin,
          ← ha, ← hb]
        rfl
      have hexact := isSum_normalize hmin hn hj (hsum.trans htotal)
      rw [hsum] at hexact
      exact hexact

/-- Of two canonical forms with one value, none has a lower place. -/
theorem Below.not_lt {k : Int} {s s' : Sign} {m m' : Nat} {e e' : Int} {hm : 0 < m} {hm' : 0 < m'}
    (h : Below k (.finite s m e hm)) (h' : Below k (.finite s' m' e' hm'))
    (hvalue : m * 2 ^ (e + 1074).toNat = m' * 2 ^ (e' + 1074).toNat) : ¬ e < e' := by
  intro hlt
  obtain ⟨hsmall, -, hlow, -⟩ := h
  have hlarge : 2 ^ 52 ≤ m' := h'.2.1.resolve_right (by omega)
  have hplaces : (e' + 1074).toNat = (e' - e - 1).toNat + 1 + (e + 1074).toNat := by omega
  rw [hplaces, Nat.pow_add, ← Nat.mul_assoc] at hvalue
  have hm' := Nat.eq_of_mul_eq_mul_right (Nat.two_pow_pos _) hvalue
  have hle : m' * 2 ≤ m := by
    rw [hm', Nat.pow_succ, ← Nat.mul_assoc]
    exact Nat.mul_le_mul_right 2 (Nat.le_mul_of_pos_right m' (Nat.two_pow_pos _))
  omega

theorem unpackedValue_pos_iff {s : Sign} {m : Nat} {e : Int} {hm : 0 < m} :
    0 < unpackedValue (.finite s m e hm) ↔ s = .positive := by
  have hpos : (0 : Int) < ((m * 2 ^ (e + 1074).toNat : Nat) : Int) :=
    Int.natCast_pos.2 (Nat.mul_pos hm (Nat.two_pow_pos _))
  cases s <;> simp only [unpackedValue, Sign.apply, reduceCtorEq, iff_true, iff_false] <;> omega

theorem natAbs_unpackedValue {s : Sign} {m : Nat} {e : Int} {hm : 0 < m} :
    (unpackedValue (.finite s m e hm)).natAbs = m * 2 ^ (e + 1074).toNat := by
  cases s <;> simp only [unpackedValue, Sign.apply] <;> omega

/-- An exact result has only one form. -/
theorem IsSum.unique {u v : UnpackedFloat} {n : Int} (hu : IsSum u n) (hv : IsSum v n) : u = v := by
  have hne {s : Sign} {m : Nat} {e : Int} (hm : 0 < m) : unpackedValue (.finite s m e hm) ≠ 0 := by
    intro hzero
    have habs := @natAbs_unpackedValue s m e hm
    rw [hzero] at habs
    exact Nat.ne_of_lt (Nat.mul_pos hm (Nat.two_pow_pos _)) habs
  obtain ⟨hbelow, rfl | ⟨s, m, e, hm, rfl⟩, rfl⟩ := hu <;>
    obtain ⟨hbelow', rfl | ⟨s', m', e', hm', rfl⟩, hvalue⟩ := hv
  · rfl
  · exact absurd hvalue (hne hm')
  · exact absurd hvalue.symm (hne hm)
  · have hs : s' = s := by
      have hsign : s' = .positive ↔ s = .positive := by
        rw [← @unpackedValue_pos_iff s' m' e' hm', ← @unpackedValue_pos_iff s m e hm, hvalue]
      cases s <;> cases s' <;> simp_all
    have habs := congrArg Int.natAbs hvalue
    rw [natAbs_unpackedValue, natAbs_unpackedValue] at habs
    have he : e = e' := by
      have hle := hbelow.not_lt hbelow' habs.symm
      have hge := hbelow'.not_lt hbelow habs
      omega
    subst hs he
    have hmantissa := Nat.eq_of_mul_eq_mul_right (Nat.two_pow_pos _) habs
    subst hmantissa
    rfl

/-! ### Sums of lists -/

/-- Numbers that are added exactly: they are multiples of one power of two, and their absolute
values add up to less than `2 ^ 53` times that power. -/
def AddExactly (xs : List Binary64) : Prop :=
  ∃ j ≤ 2044, (∀ x ∈ xs, x.isFinite = true ∧ (2 ^ j : Int) ∣ x.value) ∧
    (xs.map fun x => x.value.natAbs).sum < 2 ^ 53 * 2 ^ j

theorem isNaN_of_isFinite {x : Binary64} (h : x.isFinite = true) : x.isNaN = false :=
  decide_eq_false (Nat.not_lt.2 (Nat.le_of_lt (of_decide_eq_true h)))

/-- A number is added to an exact sum by their parts. -/
theorem IsSum.add_eq {u : UnpackedFloat} {a : Int} (hu : IsSum u a) {x : Binary64}
    (hx : x.isNaN = false) :
    ofUnpacked u + x = ofUnpacked (UnpackedFloat.add Format.binary64 u x.unpacked) := by
  have hnumber : u ≠ .notANumber := by
    obtain ⟨-, rfl | ⟨s, m, e, hm, rfl⟩, -⟩ := hu <;> simp
  rw [add_eq_ofUnpacked (isNaN_ofUnpacked (.inl hu.below) hnumber) hx,
    unpacked_ofUnpacked (.inl hu.below)]

/-- **A list that adds up exactly.** Its sum has the total of the values as its value. -/
theorem isSum_foldl {j : Nat} (hj : j ≤ 2044) {xs : List Binary64}
    (hxs : ∀ x ∈ xs, x.isFinite = true ∧ (2 ^ j : Int) ∣ x.value) {u : UnpackedFloat} {a : Int}
    (hu : IsSum u a) (ha : (2 ^ j : Int) ∣ a)
    (htotal : a.natAbs + (xs.map fun x => x.value.natAbs).sum < 2 ^ 53 * 2 ^ j) :
    ∃ v, xs.foldl (· + ·) (ofUnpacked u) = ofUnpacked v ∧ IsSum v (a + (xs.map value).sum) := by
  induction xs generalizing u a with
  | nil => exact ⟨u, rfl, by simpa using hu⟩
  | cons x xs ih =>
    -- What is left of the total bounds the partial sum, so that this step is exact.
    obtain ⟨⟨hfinite, hx⟩, hrest⟩ := List.forall_mem_cons.1 hxs
    rw [List.map_cons, List.sum_cons] at htotal
    obtain ⟨n, hn⟩ := Int.dvd_add ha hx
    have hsmall : n.natAbs < 2 ^ 53 := by
      have habs : (a + x.value).natAbs = 2 ^ j * n.natAbs := by
        rw [hn, Int.natAbs_mul, Int.natAbs_pow]
        rfl
      refine Nat.lt_of_mul_lt_mul_left (a := 2 ^ j) ?_
      rw [← habs, Nat.mul_comm]
      omega
    have hsum : IsSum (UnpackedFloat.add Format.binary64 u x.unpacked) (a + x.value) :=
      hu.add (below_unpacked (k := 1024) (Nat.le_refl _) (of_decide_eq_true hfinite))
        (value_unpacked hfinite).1 (value_unpacked hfinite).2 (by rw [hn, Int.mul_comm]) hsmall hj
    rw [List.foldl_cons, hu.add_eq (isNaN_of_isFinite hfinite), List.map_cons, List.sum_cons,
      ← Int.add_assoc]
    exact ih hrest hsum ⟨n, hn⟩ (by omega)

theorem AddExactly.exists_eq {xs : List Binary64} (h : AddExactly xs) :
    ∃ v, sum xs = ofUnpacked v ∧ IsSum v (xs.map value).sum := by
  obtain ⟨j, hj, hxs, htotal⟩ := h
  have hzero : IsSum (.zero .positive) 0 := ⟨trivial, .inl rfl, rfl⟩
  have hsum := isSum_foldl hj hxs hzero (Int.dvd_zero _) (by simpa using htotal)
  rwa [Int.zero_add] at hsum

theorem AddExactly.perm {xs ys : List Binary64} (hperm : ys.Perm xs) (h : AddExactly xs) :
    AddExactly ys := by
  obtain ⟨j, hj, hxs, htotal⟩ := h
  exact ⟨j, hj, fun y hy => hxs y (hperm.mem_iff.1 hy), by rwa [(hperm.map _).sum_eq]⟩

/-- **The order of few or exact summands does not matter.** -/
theorem sum_eq_of_perm {xs ys : List Binary64} (hperm : ys.Perm xs)
    (h : (xs.length ≤ 2 ∧ ∀ x ∈ xs, x.isNaN = false) ∨ AddExactly xs) : sum ys = sum xs := by
  rcases h with ⟨hshort, hnumbers⟩ | hexact
  · match xs, hshort with
    | [], _ => rw [hperm.eq_nil]
    | [x], _ => rw [List.perm_singleton.1 hperm]
    | [x, y], _ =>
      rcases List.perm_pair.1 hperm with rfl | rfl
      · rfl
      · exact sum_pair (hnumbers y (by simp)) (hnumbers x (by simp))
  · obtain ⟨u, hu, hsum⟩ := (hexact.perm hperm).exists_eq
    obtain ⟨v, hv, hsum'⟩ := hexact.exists_eq
    rw [(hperm.map _).sum_eq] at hsum
    rw [hu, hv, hsum.unique hsum']

end FullText.Binary64
