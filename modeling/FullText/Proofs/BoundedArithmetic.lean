import FullText.Proofs.UnpackedNumbers

/-!
# Bounds on the results of arithmetic

Rounding keeps the 53 leading bits of a result and raises them by at most one in the last place, so
the exponent grows by at most one and never falls. Hence a sum or a difference of numbers below
`2 ^ k` is below `2 ^ (k + 2)`, and a quotient by a number that is at least `2 ^ (j - 1)` is below
`2 ^ (k - j + 2)`.

## Main definitions

* `Binary64.AtLeast` : positive numbers with a lower bound.

## Main results

* `Binary64.roundWithAccuracy_eq` : what rounding does.
* `Binary64.below_add`, `Binary64.below_sub`, `Binary64.below_div` : bounds on results.
* `Binary64.atLeast_add` : a lower bound on sums.
-/

namespace FullText.Binary64

open Float.Model (UnpackedFloat Format totalExponent)
open Float.Model.UnpackedFloat

/-! ### Rounding -/

theorem mantissa_shiftRight (em : ExtendedMantissa) (k : Nat) :
    (em >>> k).mantissa = em.mantissa / 2 ^ k := by
  induction k with
  | zero => exact (Nat.div_one _).symm
  | succ k ih =>
    show (em >>> k).mantissa / 2 = _
    rw [ih, Nat.div_div_eq_div_mul, Nat.pow_succ]

theorem mantissa_ofMantissaAndAccuracy (m : Nat) (a : Accuracy) :
    (ExtendedMantissa.ofMantissaAndAccuracy m a).mantissa = m := by
  rcases a with _ | (_ | _ | _) <;> rfl

theorem roundedMantissa_mem (em : ExtendedMantissa) :
    em.roundedMantissa = em.mantissa ∨ em.roundedMantissa = em.mantissa + 1 := by
  obtain ⟨m, round, sticky⟩ := em
  cases round <;> cases sticky
  · exact .inl rfl
  · exact .inl rfl
  · show m + m % 2 = m ∨ m + m % 2 = m + 1
    omega
  · exact .inr rfl

/-- A mantissa of 53 bits at a place that the format has is left alone. -/
theorem shiftToTargetExponent_of_lt {m : Nat} {e : Int} (hm : m < 2 ^ 53) (he : -1074 ≤ e) :
    shiftToTargetExponent Format.binary64 m e .exact = (⟨m, false, false⟩, e) := by
  have hlog : m.log2 ≤ 52 := by
    by_cases hzero : m = 0
    · subst hzero
      decide
    · exact Nat.lt_succ_iff.1 ((Nat.log2_lt hzero).2 hm)
  have htarget : Format.binary64.targetExponent (totalExponent m e) ≤ e := by
    show max (((m.log2 : Int) + 1 + e) - 53) (-1074) ≤ e
    omega
  have hshift : (Format.binary64.targetExponent (totalExponent m e) - e).toNat = 0 := by omega
  rw [shiftToTargetExponent, shiftToExponent, hshift]
  show ((_, e + 0) : ExtendedMantissa × Int) = _
  rw [Int.add_zero]
  rfl

/-- A mantissa that rounding has carried over its 53 bits is halved. -/
theorem shiftToTargetExponent_carry {e : Int} (he : -1074 ≤ e) :
    shiftToTargetExponent Format.binary64 (2 ^ 53) e .exact = (⟨2 ^ 52, false, false⟩, e + 1) := by
  have hlog : (2 ^ 53 : Nat).log2 = 53 := Nat.log2_two_pow
  have htarget : Format.binary64.targetExponent (totalExponent (2 ^ 53) e) = e + 1 := by
    show max ((((2 ^ 53 : Nat).log2 : Int) + 1 + e) - 53) (-1074) = e + 1
    rw [hlog]
    omega
  have hshift : (e + 1 - e).toNat = 1 := by omega
  rw [shiftToTargetExponent, htarget, shiftToExponent, hshift]
  rfl

/-- What rounding makes of a mantissa: it is cut to 53 bits, or fewer where the format ends, at the
place `t`, possibly raised by one, and halved once more if that has carried. -/
theorem roundWithAccuracy_eq (s : Sign) {m : Nat} {e t : Int} (a : Accuracy)
    (ht : t = max ((m.log2 : Int) + 1 + e - 53) (-1074)) (he : e ≤ t) :
    ∃ r, (r = m / 2 ^ (t - e).toNat ∨ r = m / 2 ^ (t - e).toNat + 1) ∧
      ((r = 0 ∧ roundWithAccuracy Format.binary64 s m e a = .zero s) ∨
      (∃ h, r < 2 ^ 53 ∧ roundWithAccuracy Format.binary64 s m e a = .finite s r t h) ∨
      (∃ h, r = 2 ^ 53 ∧
        roundWithAccuracy Format.binary64 s m e a = .finite s (2 ^ 52) (t + 1) h)) := by
  have hplace : e + ((t - e).toNat : Int) = t := by omega
  have htarget : Format.binary64.targetExponent (totalExponent m e) = t := ht.symm
  have hcut : m / 2 ^ (t - e).toNat < 2 ^ 53 := by
    have hpow : m < 2 ^ (m.log2 + 1) := Nat.lt_log2_self
    have hle : 2 ^ (m.log2 + 1) ≤ 2 ^ (53 + (t - e).toNat) :=
      Nat.pow_le_pow_right (by decide) (by omega)
    rw [Nat.div_lt_iff_lt_mul (Nat.two_pow_pos _), ← Nat.pow_add]
    exact Nat.lt_of_lt_of_le hpow hle
  obtain ⟨em, hem, hfirst⟩ : ∃ em : ExtendedMantissa, em.mantissa = m / 2 ^ (t - e).toNat ∧
      shiftToTargetExponent Format.binary64 m e a = (em, t) := by
    refine ⟨ExtendedMantissa.ofMantissaAndAccuracy m a >>> (t - e).toNat, ?_, ?_⟩
    · rw [mantissa_shiftRight, mantissa_ofMantissaAndAccuracy]
    · rw [shiftToTargetExponent, htarget, shiftToExponent, hplace]
  rw [← hem] at hcut ⊢
  have hr := roundedMantissa_mem em
  refine ⟨em.roundedMantissa, hr, ?_⟩
  rw [roundWithAccuracy]
  simp only [hfirst]
  by_cases hlt : em.roundedMantissa < 2 ^ 53
  · simp only [shiftToTargetExponent_of_lt hlt (show -1074 ≤ t by omega)]
    by_cases hzero : em.roundedMantissa = 0
    · exact .inl ⟨hzero, dif_pos hzero⟩
    · exact .inr (.inl ⟨Nat.pos_of_ne_zero hzero, hlt, dif_neg hzero⟩)
  · have hcarry : em.roundedMantissa = 2 ^ 53 := by omega
    simp only [hcarry, shiftToTargetExponent_carry (show -1074 ≤ t by omega)]
    exact .inr (.inr ⟨by decide, trivial, dif_neg (by decide)⟩)

theorem two_pow_le_cut {m : Nat} (h : 52 ≤ m.log2) : 2 ^ 52 ≤ m / 2 ^ (m.log2 - 52) := by
  have hm : m ≠ 0 := by
    rintro rfl
    exact absurd h (by decide)
  rw [Nat.le_div_iff_mul_le (Nat.two_pow_pos _), ← Nat.pow_add, Nat.add_sub_cancel' h]
  exact Nat.log2_self_le hm

theorem below_roundWithAccuracy (s : Sign) {m : Nat} {e k : Int} (a : Accuracy) (hk : -1021 ≤ k)
    (htotal : m.log2 + 1 + e ≤ k) (he : 52 ≤ m.log2 ∨ e ≤ -1074) :
    Below (k + 1) (roundWithAccuracy Format.binary64 s m e a) := by
  obtain ⟨t, ht⟩ : ∃ t : Int, t = max ((m.log2 : Int) + 1 + e - 53) (-1074) := ⟨_, rfl⟩
  obtain ⟨r, hr, ⟨-, h⟩ | ⟨hpos, hlt, h⟩ | ⟨hpos, -, h⟩⟩ :=
    roundWithAccuracy_eq s a ht (by omega)
  · rw [h]
    trivial
  · rw [h]
    refine ⟨hlt, ?_, by omega, by omega⟩
    by_cases hplace : t = -1074
    · exact .inr hplace
    · have hcut := two_pow_le_cut (m := m) (by omega)
      have hshift : (t - e).toNat = m.log2 - 52 := by omega
      rw [hshift] at hr
      exact .inl (by omega)
  · rw [h]
    exact ⟨by decide, .inl (Nat.le_refl _), by omega, by omega⟩

/-- A positive number in canonical form that is at least `2 ^ (j - 1)`. -/
def AtLeast (j : Int) : UnpackedFloat → Prop
  | .finite .positive m e _ => 2 ^ 52 ≤ m ∧ j ≤ e + 53
  | _ => False

theorem AtLeast.exists_eq {j : Int} {u : UnpackedFloat} (h : AtLeast j u) :
    ∃ m e hm, u = .finite .positive m e hm ∧ 2 ^ 52 ≤ m ∧ j ≤ e + 53 := by
  cases u with
  | notANumber => exact h.elim
  | infinity s => exact h.elim
  | zero s => exact h.elim
  | finite s m e hm =>
    cases s with
    | negative => exact h.elim
    | positive => exact ⟨m, e, hm, rfl, h⟩

theorem Nonnegative.exists_eq {u : UnpackedFloat} (h : Nonnegative u) :
    (∃ s, u = .zero s) ∨ ∃ m e hm, u = .finite .positive m e hm := by
  cases u with
  | notANumber => exact h.elim
  | infinity s => exact h.elim
  | zero s => exact .inl ⟨s, rfl⟩
  | finite s m e hm =>
    cases s with
    | negative => exact h.elim
    | positive => exact .inr ⟨m, e, hm, rfl⟩

theorem atLeast_roundWithAccuracy {m : Nat} {e j : Int} (a : Accuracy) (hj : -1021 ≤ j)
    (htotal : j ≤ m.log2 + 1 + e) (he : 52 ≤ m.log2) :
    AtLeast j (roundWithAccuracy Format.binary64 .positive m e a) := by
  obtain ⟨t, ht⟩ : ∃ t : Int, t = max ((m.log2 : Int) + 1 + e - 53) (-1074) := ⟨_, rfl⟩
  have hcut := two_pow_le_cut he
  have hshift : (t - e).toNat = m.log2 - 52 := by omega
  obtain ⟨r, hr, ⟨hzero, -⟩ | ⟨hpos, hlt, h⟩ | ⟨hpos, -, h⟩⟩ :=
    roundWithAccuracy_eq .positive a ht (by omega)
  all_goals rw [hshift] at hr
  · omega
  · rw [h]
    exact ⟨by omega, by omega⟩
  · rw [h]
    exact ⟨Nat.le_refl _, by omega⟩

theorem log2_shiftLeft {m : Nat} (hm : m ≠ 0) (k : Nat) : (m <<< k).log2 = m.log2 + k := by
  have hpow : 0 < 2 ^ k := Nat.two_pow_pos k
  have hlow := Nat.mul_le_mul_right (2 ^ k) (Nat.log2_self_le hm)
  have hhigh := Nat.mul_lt_mul_of_pos_right (Nat.lt_log2_self (n := m)) hpow
  rw [Nat.shiftLeft_eq]
  refine (Nat.log2_eq_iff (Nat.mul_ne_zero hm (Nat.ne_of_gt hpow))).2 ⟨?_, ?_⟩
  · rwa [Nat.pow_add]
  · rwa [Nat.add_right_comm, Nat.pow_add]

theorem below_round (s : Sign) {m : Nat} {e k : Int} (hm : m ≠ 0) (hk : -1021 ≤ k)
    (htotal : m.log2 + 1 + e ≤ k) : Below (k + 1) (UnpackedFloat.round Format.binary64 s m e) := by
  obtain ⟨t, ht⟩ : ∃ t : Int, t = max ((m.log2 : Int) + 1 + e - 53) (-1074) := ⟨_, rfl⟩
  have htarget : Format.binary64.targetExponent (totalExponent m e) = t := ht.symm
  have hlog := log2_shiftLeft hm (e - t).toNat
  rw [UnpackedFloat.round, htarget]
  exact below_roundWithAccuracy s .exact hk (by omega) (by omega)

theorem atLeast_round {m : Nat} {e j : Int} (hm : m ≠ 0) (hj : -1021 ≤ j)
    (htotal : j ≤ m.log2 + 1 + e) :
    AtLeast j (UnpackedFloat.round Format.binary64 .positive m e) := by
  obtain ⟨t, ht⟩ : ∃ t : Int, t = max ((m.log2 : Int) + 1 + e - 53) (-1074) := ⟨_, rfl⟩
  have htarget : Format.binary64.targetExponent (totalExponent m e) = t := ht.symm
  have hlog := log2_shiftLeft hm (e - t).toNat
  rw [UnpackedFloat.round, htarget]
  exact atLeast_roundWithAccuracy .exact hj (by omega) (by omega)

theorem below_normalize {m : Int} {e k : Int} (s : Sign) (hk : -1021 ≤ k)
    (htotal : m ≠ 0 → m.natAbs.log2 + 1 + e ≤ k) :
    Below (k + 1) (UnpackedFloat.normalize Format.binary64 m e s) := by
  rcases Int.lt_trichotomy m 0 with hm | rfl | hm
  · have habs : (-m).toNat = m.natAbs := by omega
    rw [UnpackedFloat.normalize, Int.compare_eq_lt.2 hm, habs]
    exact below_round .negative (by omega) hk (htotal (by omega))
  · trivial
  · have habs : m.toNat = m.natAbs := by omega
    rw [UnpackedFloat.normalize, Int.compare_eq_gt.2 hm, habs]
    exact below_round .positive (by omega) hk (htotal (by omega))

theorem Below.mono {j k : Int} {u : UnpackedFloat} (h : Below j u) (hjk : j ≤ k) : Below k u := by
  cases u with
  | notANumber => trivial
  | infinity s => exact h
  | zero s => trivial
  | finite s m e hm => exact ⟨h.1, h.2.1, h.2.2.1, by have := h.2.2.2; omega⟩

/-! ### Operations -/

/-- Two mantissas brought to a common place add up to less than twice the bound. -/
theorem log2_sum_le {m₁ m₂ : Nat} {e₁ e₂ k : Int} (h₁ : m₁ < 2 ^ 53) (h₂ : m₂ < 2 ^ 53)
    (hk₁ : e₁ + 53 ≤ k) (hk₂ : e₂ + 53 ≤ k) {m : Nat} (hm : m ≠ 0)
    (hsum : m ≤ m₁ <<< (e₁ - min e₁ e₂).toNat + m₂ <<< (e₂ - min e₁ e₂).toNat) :
    m.log2 + 1 + min e₁ e₂ ≤ k + 1 := by
  have hshift {n : Nat} {i : Int} (hn : n < 2 ^ 53) (hi : i + 53 ≤ k) (hmin : min e₁ e₂ ≤ i) :
      n <<< (i - min e₁ e₂).toNat < 2 ^ (k - min e₁ e₂).toNat := by
    have hle : 2 ^ (53 + (i - min e₁ e₂).toNat) ≤ 2 ^ (k - min e₁ e₂).toNat :=
      Nat.pow_le_pow_right (by decide) (by omega)
    rw [Nat.shiftLeft_eq]
    refine Nat.lt_of_lt_of_le ?_ hle
    rw [Nat.pow_add]
    exact Nat.mul_lt_mul_of_pos_right hn (Nat.two_pow_pos _)
  have hlt₁ := hshift h₁ hk₁ (by omega)
  have hlt₂ := hshift h₂ hk₂ (by omega)
  have hlog : m.log2 < (k - min e₁ e₂).toNat + 1 := by
    rw [Nat.log2_lt hm, Nat.pow_succ]
    omega
  omega

theorem below_normalize_sum {s₁ s₂ : Sign} {m₁ m₂ : Nat} {e₁ e₂ k : Int} {h₁ : 0 < m₁}
    {h₂ : 0 < m₂} (hk : -1022 ≤ k) (hu : Below k (.finite s₁ m₁ e₁ h₁))
    (hv : Below k (.finite s₂ m₂ e₂ h₂)) (s : Sign) {m : Int}
    (hm : m.natAbs ≤ m₁ <<< (e₁ - min e₁ e₂).toNat + m₂ <<< (e₂ - min e₁ e₂).toNat) :
    Below (k + 2) (UnpackedFloat.normalize Format.binary64 m (min e₁ e₂) s) := by
  have hplaces : k + 2 = k + 1 + 1 := by omega
  rw [hplaces]
  refine below_normalize s (by omega) fun hne => ?_
  exact log2_sum_le hu.1 hv.1 hu.2.2.2 hv.2.2.2 (Int.natAbs_ne_zero.2 hne) hm

theorem natAbs_apply_add_le (s₁ s₂ : Sign) (a b : Nat) :
    (s₁.apply a + s₂.apply b).natAbs ≤ a + b := by
  cases s₁ <;> cases s₂ <;> simp only [Sign.apply] <;> omega

theorem natAbs_apply_sub_le (s₁ s₂ : Sign) (a b : Nat) :
    (s₁.apply a - s₂.apply b).natAbs ≤ a + b := by
  cases s₁ <;> cases s₂ <;> simp only [Sign.apply] <;> omega

theorem below_add {k : Int} {u v : UnpackedFloat} (hk : -1022 ≤ k) (hu : Below k u)
    (hv : Below k v) : Below (k + 2) (add Format.binary64 u v) := by
  have hle : k ≤ k + 2 := by omega
  cases u with
  | notANumber => cases v <;> trivial
  | infinity s => exact hu.elim
  | zero s₁ =>
    cases v with
    | notANumber => trivial
    | infinity s => exact hv.elim
    | zero s₂ =>
      rw [add]
      split <;> trivial
    | finite s₂ m₂ e₂ h₂ => exact hv.mono hle
  | finite s₁ m₁ e₁ h₁ =>
    cases v with
    | notANumber => trivial
    | infinity s => exact hv.elim
    | zero s₂ => exact hu.mono hle
    | finite s₂ m₂ e₂ h₂ =>
      exact below_normalize_sum hk hu hv _ (natAbs_apply_add_le s₁ s₂ _ _)

theorem below_sub {k : Int} {u v : UnpackedFloat} (hk : -1022 ≤ k) (hu : Below k u)
    (hv : Below k v) : Below (k + 2) (sub Format.binary64 u v) := by
  have hle : k ≤ k + 2 := by omega
  cases u with
  | notANumber => cases v <;> trivial
  | infinity s => exact hu.elim
  | zero s₁ =>
    cases v with
    | notANumber => trivial
    | infinity s => exact hv.elim
    | zero s₂ =>
      rw [sub]
      split <;> trivial
    | finite s₂ m₂ e₂ h₂ => exact Below.mono (u := .finite s₂ m₂ e₂ h₂) hv hle
  | finite s₁ m₁ e₁ h₁ =>
    cases v with
    | notANumber => trivial
    | infinity s => exact hv.elim
    | zero s₂ => exact hu.mono hle
    | finite s₂ m₂ e₂ h₂ =>
      exact below_normalize_sum hk hu hv _ (natAbs_apply_sub_le s₁ s₂ _ _)

/-- Positive numbers are added at the lower one of their places. -/
theorem add_positive {m₁ m₂ : Nat} {e₁ e₂ : Int} (h₁ : 0 < m₁) (h₂ : 0 < m₂) {m : Nat}
    (hm : m = m₁ <<< (e₁ - min e₁ e₂).toNat + m₂ <<< (e₂ - min e₁ e₂).toNat) (hpos : 0 < m) :
    add Format.binary64 (.finite .positive m₁ e₁ h₁) (.finite .positive m₂ e₂ h₂) =
      UnpackedFloat.round Format.binary64 .positive m (min e₁ e₂) := by
  have hint : (Sign.positive.apply (m₁ <<< (e₁ - min e₁ e₂).toNat : Nat) +
      Sign.positive.apply (m₂ <<< (e₂ - min e₁ e₂).toNat : Nat) : Int) = (m : Int) := by
    simp only [Sign.apply]
    omega
  show UnpackedFloat.normalize Format.binary64 _ _ _ = _
  rw [hint, UnpackedFloat.normalize, Int.compare_eq_gt.2 (by omega)]
  rfl

theorem atLeast_add {j : Int} {u v : UnpackedFloat} (hj : -1021 ≤ j) (hu : Nonnegative u)
    (hv : AtLeast j v) : AtLeast j (add Format.binary64 u v) := by
  obtain ⟨m₂, e₂, h₂, rfl, hm₂, hplace⟩ := hv.exists_eq
  obtain ⟨s, rfl⟩ | ⟨m₁, e₁, h₁, rfl⟩ := hu.exists_eq
  · exact hv
  · have hlog : 52 ≤ m₂.log2 := (Nat.le_log2 (Nat.ne_of_gt h₂)).2 hm₂
    have hshift := log2_shiftLeft (Nat.ne_of_gt h₂) (e₂ - min e₁ e₂).toNat
    have hpos : 0 < m₂ <<< (e₂ - min e₁ e₂).toNat := by
      rw [Nat.shiftLeft_eq]
      exact Nat.mul_pos h₂ (Nat.two_pow_pos _)
    obtain ⟨m, hm⟩ :
        ∃ m, m = m₁ <<< (e₁ - min e₁ e₂).toNat + m₂ <<< (e₂ - min e₁ e₂).toNat := ⟨_, rfl⟩
    have hle : m₂ <<< (e₂ - min e₁ e₂).toNat ≤ m := by
      rw [hm]
      exact Nat.le_add_left _ _
    have hlogm : (m₂ <<< (e₂ - min e₁ e₂).toNat).log2 ≤ m.log2 :=
      (Nat.le_log2 (by omega)).2 (Nat.le_trans (Nat.log2_self_le (by omega)) hle)
    rw [add_positive h₁ h₂ hm (by omega)]
    exact atLeast_round (by omega) hj (by omega)

/-- A quotient by a mantissa of 53 bits has 52 bits less than the numerator at least. -/
theorem log2_div_le {n m : Nat} (hm : 2 ^ 52 ≤ m) (hzero : n / m ≠ 0) :
    (n / m).log2 + 52 ≤ n.log2 := by
  have hn : n ≠ 0 := by
    rintro rfl
    exact hzero (Nat.zero_div m)
  have hle : n / m * 2 ^ 52 ≤ n :=
    Nat.le_trans (Nat.mul_le_mul_left _ hm) (Nat.div_mul_le_self n m)
  rw [← log2_shiftLeft hzero, Nat.le_log2 hn, Nat.shiftLeft_eq]
  exact Nat.le_trans (Nat.log2_self_le (by omega)) hle

/-- A quotient by a mantissa of 53 bits has 53 bits less than the numerator at most. -/
theorem le_log2_div {n m c : Nat} (hm : 0 < m) (hlt : m < 2 ^ 53) (hn : c + 53 ≤ n.log2) :
    c ≤ (n / m).log2 := by
  have hzero : n ≠ 0 := by
    rintro rfl
    have hlog : (0 : Nat).log2 = 0 := by decide
    omega
  have hlow : 2 ^ c * 2 ^ 53 ≤ n := by
    rw [← Nat.pow_add]
    exact (Nat.le_log2 hzero).1 hn
  have hquotient : 2 ^ c ≤ n / m := by
    rw [Nat.le_div_iff_mul_le hm]
    exact Nat.le_trans (Nat.mul_le_mul_left _ (Nat.le_of_lt hlt)) hlow
  have hpos := Nat.two_pow_pos c
  exact (Nat.le_log2 (by omega)).2 hquotient

/-- Division extends the numerator by as many places as the quotient needs, and rounds. The quotient
has 53 bits, unless it reaches the end of the format. -/
theorem exists_div_eq (s : Sign) {m₁ m₂ : Nat} (e₁ e₂ : Int) (h₁ : 0 < m₁) (h₂ : 0 < m₂)
    (hm₂ : 2 ^ 52 ≤ m₂) (hlt : m₂ < 2 ^ 53) : ∃ (k : Nat) (t : Int) (a : Accuracy),
      div Format.binary64 (.finite s m₁ e₁ h₁) (.finite .positive m₂ e₂ h₂) =
        roundWithAccuracy Format.binary64 (s / .positive) (m₁ <<< k / m₂) t a ∧
      t + k = e₁ - e₂ ∧ (52 ≤ (m₁ <<< k / m₂).log2 ∨ t ≤ -1074) := by
  have hlog : m₂.log2 = 52 := (Nat.log2_eq_iff (by omega)).2 ⟨hm₂, hlt⟩
  obtain ⟨t, ht⟩ : ∃ t : Int, t = min (e₁ - e₂)
      (max (((m₁.log2 : Int) + 1 + e₁) - ((m₂.log2 : Int) + 1 + e₂) - 53) (-1074)) := ⟨_, rfl⟩
  have hshift := log2_shiftLeft (Nat.ne_of_gt h₁) (e₁ - e₂ - t).toNat
  refine ⟨(e₁ - e₂ - t).toNat, t,
    accuracyOfFraction (m₁ <<< (e₁ - e₂ - t).toNat % m₂) m₂, ?_, by omega, ?_⟩
  · rw [ht]
    rfl
  · by_cases hend : t ≤ -1074
    · exact .inr hend
    -- The numerator is extended to 106 places.
    · exact .inl (le_log2_div h₂ hlt (by omega))

/-- A quotient stays below the bound of its numerator by the least size of its denominator. -/
theorem below_div {j k l : Int} {u v : UnpackedFloat} (hu : Below k u) (hv : AtLeast j v)
    (hv' : Below l v) (hjk : -1022 ≤ k - j) : Below (k - j + 2) (div Format.binary64 u v) := by
  obtain ⟨m₂, e₂, h₂, rfl, hm₂, hplace⟩ := hv.exists_eq
  cases u with
  | notANumber => trivial
  | infinity s => exact hu.elim
  | zero s => trivial
  | finite s₁ m₁ e₁ h₁ =>
    have hlog₁ : m₁.log2 ≤ 52 := Nat.lt_succ_iff.1 ((Nat.log2_lt (by omega)).2 hu.1)
    have hk := hu.2.2.2
    have hplaces : k - j + 2 = k - j + 1 + 1 := by omega
    obtain ⟨i, t, a, hdiv, ht, hlong⟩ := exists_div_eq s₁ e₁ e₂ h₁ h₂ hm₂ hv'.1
    have hshift := log2_shiftLeft (Nat.ne_of_gt h₁) i
    rw [hdiv, hplaces]
    refine below_roundWithAccuracy _ _ (by omega) ?_ hlong
    by_cases hzero : m₁ <<< i / m₂ = 0
    · have hlog : (0 : Nat).log2 = 0 := by decide
      rw [hzero, hlog] at hlong ⊢
      omega
    · have hlog := log2_div_le hm₂ hzero
      omega

end FullText.Binary64
