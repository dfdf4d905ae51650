import FullText.Binary64
import Mathlib

/-!
# Numbers taken apart

The logical model of the processor takes numbers apart into sign, mantissa and exponent, computes
with these, and puts the result together again. This file relates the parts to the bits: what the
format has is put together without loss, and an operation on bits is the operation on their parts.

## Main definitions

* `Binary64.unpacked` : the parts of a number.
* `Binary64.Below` : parts in canonical form with a bound on the absolute value.
* `Binary64.Nonnegative` : parts of zero and of positive numbers.

## Main results

* `Binary64.unpack_pack` : putting parts together loses nothing.
* `Binary64.below_unpacked` : a bound on the bits is a bound on the parts.
* `Binary64.unpacked_apply` : operations on bits and operations on parts.
-/

namespace FullText.Binary64

open Float.Model (UnpackedFloat Format)
open Float.Model.UnpackedFloat

/-- The bits as the processor takes them apart. -/
def unpacked (x : Binary64) : UnpackedFloat := unpack Format.binary64 x.bits.toBitVec

/-- What stands for no number, zero, or a number in canonical form below `2 ^ k`. -/
def Below (k : Int) : UnpackedFloat → Prop
  | .notANumber => True
  | .infinity _ => False
  | .zero _ => True
  | .finite _ m e _ => m < 2 ^ 53 ∧ (2 ^ 52 ≤ m ∨ e = -1074) ∧ -1074 ≤ e ∧ e + 53 ≤ k

/-- Zero, or a number in canonical form above it. -/
def Nonnegative : UnpackedFloat → Prop
  | .zero _ => True
  | .finite .positive _ _ _ => True
  | _ => False

theorem exponent_eq_ones_iff {b : BitVec 11} : b = -1#11 ↔ b.toNat = 2047 := by
  rw [← BitVec.toNat_inj]
  rfl

theorem bitVec_eq_zero_iff {n : Nat} {b : BitVec n} : b = 0#n ↔ b.toNat = 0 := by
  rw [← BitVec.toNat_inj, BitVec.toNat_zero]

theorem exponent_toNat (b : BitVec 64) :
    (@unpackExponent Format.binary64 b).toNat = b.toNat / 2 ^ 52 % 2 ^ 11 := by
  simp only [unpackExponent, BitVec.toNat_cast, BitVec.extractLsb_toNat, Nat.shiftRight_eq_div_pow]

theorem mantissa_toNat (b : BitVec 64) :
    (@unpackMantissa Format.binary64 b).toNat = b.toNat % 2 ^ 52 := by
  simp only [unpackMantissa, BitVec.toNat_cast, BitVec.extractLsb_toNat, Nat.shiftRight_zero]

theorem sign_toNat (b : BitVec 64) :
    (@unpackSign Format.binary64 b).toNat = b.toNat / 2 ^ 63 % 2 := by
  simp only [unpackSign, BitVec.toNat_cast, BitVec.extractLsb_toNat, Nat.shiftRight_eq_div_pow]

theorem sign_packComponents (s : Sign) (e : BitVec 11) (m : BitVec 52) :
    unpackSign (packComponents Format.binary64 s e m) = s.toBitVec := by
  have hfirst : (packComponents Format.binary64 s e m).getLsbD 63 = s.toBitVec.getLsbD 0 := by
    rw [packComponents, BitVec.getLsbD_append, BitVec.getLsbD_append]
    rfl
  ext i hi
  obtain rfl : i = 0 := by omega
  rw [← BitVec.getLsbD_eq_getElem, ← BitVec.getLsbD_eq_getElem, ← hfirst]
  simp [unpackSign]

theorem ofBitVec_toBitVec (s : Sign) : Sign.ofBitVec s.toBitVec = s := by
  cases s <;> rfl

theorem toNat_append_one (m : BitVec 52) : (1#1 ++ m).toNat = 2 ^ 52 + m.toNat := by
  rw [BitVec.toNat_append, ← Nat.shiftLeft_add_eq_or_of_lt m.isLt]
  rfl

theorem unpack_packComponents (s : Sign) (e : BitVec 11) (m : BitVec 52) :
    unpack Format.binary64 (packComponents Format.binary64 s e m) =
      if e = -1#_ then if m = 0#_ then .infinity s else .notANumber
      else if e = 0#_ then
        if h : m = 0#_ then .zero s
        else .finite s m.toNat (e.toNat - 1075 + 1)
          (by simpa [BitVec.toNat_pos, BitVec.pos_iff_ne_zero])
      else .finite s (1#1 ++ m).toNat (e.toNat - 1075) (by rw [toNat_append_one]; omega) := by
  simp only [unpack, unpackMantissa_packComponents, unpackExponent_packComponents,
    sign_packComponents, ofBitVec_toBitVec]
  rfl

section Finite

variable {s : Sign} {m : Nat} {e : Int} {hm : 0 < m} {b : Nat}

/-- The exponent is stored as a natural number. -/
theorem pack_finite (hb : (b : Int) = e + 1075) (hlt : b < 2047) :
    pack Format.binary64 (.finite s m e hm) =
      if m.log2 + 1 = Format.binary64.mantissaBits then
        packComponents Format.binary64 s (BitVec.ofNat 11 b) (BitVec.ofNat 52 m)
      else packComponents Format.binary64 s 0#11 (BitVec.ofNat 52 m) := by
  have hbias :
      (e + Format.binary64.exponentBias + Format.binary64.mantissaBitsWithoutImplicit).toNat =
        b := by
    show (e + 1023 + 52).toNat = b
    omega
  have hfits : ¬ 2 ^ Format.binary64.exponentBits ≤ b + 1 := by
    show ¬ 2 ^ 11 ≤ b + 1
    omega
  rw [pack]
  simp only [hbias, if_neg hfits]

/-- A mantissa of 53 bits is stored without its leading bit. -/
theorem unpack_pack_normal (hb : (b : Int) = e + 1075) (hpos : 0 < b) (hlt : b < 2047)
    (hnormal : 2 ^ 52 ≤ m) (hsmall : m < 2 ^ 53) :
    unpack Format.binary64 (pack Format.binary64 (.finite s m e hm)) = .finite s m e hm := by
  have hlog : m.log2 = 52 := (Nat.log2_eq_iff (by omega)).2 ⟨hnormal, hsmall⟩
  have hexponent : (BitVec.ofNat 11 b).toNat = b := by
    rw [BitVec.toNat_ofNat, Nat.mod_eq_of_lt (by omega)]
  have hmantissa : (BitVec.ofNat 52 m).toNat = m - 2 ^ 52 := by
    rw [BitVec.toNat_ofNat]
    omega
  have hones : BitVec.ofNat 11 b ≠ -1#_ := mt exponent_eq_ones_iff.1 (by omega)
  have hzero : BitVec.ofNat 11 b ≠ 0#_ := mt bitVec_eq_zero_iff.1 (by omega)
  rw [pack_finite hb hlt, hlog, if_pos (by rfl), unpack_packComponents, if_neg hones, if_neg hzero]
  congr 1
  · rw [toNat_append_one, hmantissa]
    omega
  · omega

/-- A shorter mantissa is stored as it is, at the end of the format. -/
theorem unpack_pack_subnormal (hsmall : m < 2 ^ 52) :
    unpack Format.binary64 (pack Format.binary64 (.finite s m (-1074) hm)) =
      .finite s m (-1074) hm := by
  have hlog : m.log2 < 52 := (Nat.log2_lt (by omega)).2 hsmall
  have hmantissa : (BitVec.ofNat 52 m).toNat = m := by
    rw [BitVec.toNat_ofNat, Nat.mod_eq_of_lt hsmall]
  have hzero : BitVec.ofNat 52 m ≠ 0#_ := mt bitVec_eq_zero_iff.1 (by omega)
  have hbits : ¬ m.log2 + 1 = Format.binary64.mantissaBits := by
    show ¬ m.log2 + 1 = 53
    omega
  rw [pack_finite (b := 1) (by omega) (by omega), if_neg hbits, unpack_packComponents,
    if_neg (by decide), if_pos rfl, dif_neg hzero]
  congr 1

theorem unpack_pack_finite (h : Below 1024 (.finite s m e hm)) :
    unpack Format.binary64 (pack Format.binary64 (.finite s m e hm)) = .finite s m e hm := by
  obtain ⟨hlt, hcanonical, hleast, hgreatest⟩ := h
  by_cases hnormal : 2 ^ 52 ≤ m
  · obtain ⟨b, hb⟩ : ∃ b : Nat, (b : Int) = e + 1075 := ⟨(e + 1075).toNat, by omega⟩
    exact unpack_pack_normal hb (by omega) (by omega) hnormal hlt
  · obtain rfl : e = -1074 := hcanonical.resolve_left hnormal
    exact unpack_pack_subnormal (Nat.not_le.1 hnormal)

end Finite

/-- The processor takes a number apart as it has put it together. -/
theorem unpack_pack {u : UnpackedFloat} (h : Below 1024 u ∨ ∃ s, u = .infinity s) :
    unpack Format.binary64 (pack Format.binary64 u) = u := by
  cases u with
  | notANumber => rfl
  | infinity s =>
    rw [pack, packedInfinity, unpack_packComponents]
    rfl
  | zero s =>
    rw [pack, packedZero, unpack_packComponents]
    rfl
  | finite s m e hm =>
    refine unpack_pack_finite (h.resolve_right ?_)
    rintro ⟨s, hs⟩
    cases hs

/-! ### The bits -/

/-- The exponent is what stands above the fraction, without the sign. -/
theorem exponent_eq_magnitude_div (x : Binary64) :
    (@unpackExponent Format.binary64 x.bits.toBitVec).toNat = x.magnitude / 2 ^ 52 := by
  have hbits : x.bits.toBitVec.toNat = x.bits.toNat := rfl
  have hlt : x.bits.toNat < 2 ^ 64 := x.bits.toBitVec.isLt
  simp only [magnitude, signWeight]
  rw [exponent_toNat, hbits]
  omega

theorem mantissa_eq_magnitude_mod (x : Binary64) :
    (@unpackMantissa Format.binary64 x.bits.toBitVec).toNat = x.magnitude % 2 ^ 52 := by
  have hbits : x.bits.toBitVec.toNat = x.bits.toNat := rfl
  simp only [magnitude, signWeight]
  rw [mantissa_toNat, hbits]
  omega

theorem toNat_eq_of_isNaN {x : Binary64} (h : x.isNaN = true) :
    (@unpackExponent Format.binary64 x.bits.toBitVec).toNat = 2047 ∧
      (@unpackMantissa Format.binary64 x.bits.toBitVec).toNat ≠ 0 := by
  have hlt : x.magnitude < signWeight := Nat.mod_lt _ (by decide)
  have hmagnitude := of_decide_eq_true h
  simp only [infinityMagnitude, signWeight] at hmagnitude hlt
  rw [exponent_eq_magnitude_div, mantissa_eq_magnitude_mod]
  omega

theorem unpacked_of_isNaN {x : Binary64} (h : x.isNaN = true) : x.unpacked = .notANumber := by
  obtain ⟨hexponent, hmantissa⟩ := toNat_eq_of_isNaN h
  rw [unpacked, UnpackedFloat.unpack]
  simp only
  rw [if_pos (exponent_eq_ones_iff.2 hexponent), if_neg (mt bitVec_eq_zero_iff.1 hmantissa)]

theorem unpacked_of_eq_infinityMagnitude {x : Binary64} (h : x.magnitude = infinityMagnitude) :
    ∃ s, x.unpacked = .infinity s := by
  have hexponent : (@unpackExponent Format.binary64 x.bits.toBitVec).toNat = 2047 := by
    rw [exponent_eq_magnitude_div, h]
    rfl
  have hmantissa : (@unpackMantissa Format.binary64 x.bits.toBitVec).toNat = 0 := by
    rw [mantissa_eq_magnitude_mod, h]
    rfl
  rw [unpacked, UnpackedFloat.unpack]
  simp only
  rw [if_pos (exponent_eq_ones_iff.2 hexponent), if_pos (bitVec_eq_zero_iff.2 hmantissa)]
  exact ⟨_, rfl⟩

/-- What has a bound is no infinity. -/
theorem isFinite_or_isNaN {x : Binary64} {k : Int} (h : Below k x.unpacked) :
    x.isFinite = true ∨ x.isNaN = true := by
  rcases Nat.lt_trichotomy x.magnitude infinityMagnitude with hlt | heq | hgt
  · exact .inl (decide_eq_true hlt)
  · obtain ⟨s, hs⟩ := unpacked_of_eq_infinityMagnitude heq
    rw [hs] at h
    exact h.elim
  · exact .inr (decide_eq_true hgt)

/-- The least magnitude with the exponent `k`, which is that of `2 ^ k` for a normal exponent. -/
theorem below_unpacked {x : Binary64} {k : Nat} (hk : k ≤ 1024)
    (h : x.magnitude < (1023 + k) * fractionWeight) : Below k x.unpacked := by
  simp only [fractionWeight] at h
  have hexponent := exponent_eq_magnitude_div x
  have hmantissa := mantissa_eq_magnitude_mod x
  rw [unpacked, UnpackedFloat.unpack]
  simp only
  rw [if_neg (mt exponent_eq_ones_iff.1 (by omega))]
  split_ifs with hzero hfraction
  · trivial
  · rw [bitVec_eq_zero_iff] at hzero
    rw [hzero]
    refine ⟨?_, .inr rfl, ?_, ?_⟩
    · rw [hmantissa]
      omega
    · exact Int.le_refl _
    · show (0 : Int) - (1023 + 52) + 1 + 53 ≤ k
      omega
  · rw [bitVec_eq_zero_iff] at hzero
    have hone := toNat_append_one (@unpackMantissa Format.binary64 x.bits.toBitVec)
    refine ⟨?_, .inl ?_, ?_, ?_⟩
    · rw [hone, hmantissa]
      omega
    · rw [hone]
      omega
    · rw [hexponent]
      show (-1074 : Int) ≤ _ - (1023 + 52)
      omega
    · rw [hexponent]
      show (_ : Int) - (1023 + 52) + 53 ≤ k
      omega

theorem unpackSign_eq_zero {x : Binary64} (hsign : x.isNegative = false) :
    @unpackSign Format.binary64 x.bits.toBitVec = 0#1 := by
  have hbits : x.bits.toBitVec.toNat = x.bits.toNat := rfl
  have hpositive := of_decide_eq_false hsign
  simp only [signWeight] at hpositive
  rw [bitVec_eq_zero_iff, sign_toNat, hbits]
  omega

theorem nonnegative_unpacked {x : Binary64} (hsign : x.isNegative = false)
    (hfinite : x.isFinite = true) : Nonnegative x.unpacked := by
  have hmagnitude := of_decide_eq_true hfinite
  simp only [infinityMagnitude] at hmagnitude
  have hexponent := exponent_eq_magnitude_div x
  rw [unpacked, UnpackedFloat.unpack]
  simp only
  rw [if_neg (mt exponent_eq_ones_iff.1 (by omega)), unpackSign_eq_zero hsign]
  split_ifs <;> trivial

/-- Bits that do not stand for infinity are taken apart into something that the format has. -/
theorem unpacked_mem (x : Binary64) : Below 1024 x.unpacked ∨ ∃ s, x.unpacked = .infinity s := by
  rcases Nat.lt_trichotomy x.magnitude infinityMagnitude with h | h | h
  · exact .inl (below_unpacked (k := 1024) (by omega) h)
  · exact .inr (unpacked_of_eq_infinityMagnitude h)
  · rw [unpacked_of_isNaN (decide_eq_true h)]
    exact .inl trivial

/-! ### Arithmetic on the bits -/

theorem unpack_toModel_toFloat (x : Binary64) : x.toFloat.toModel.unpack = x.unpacked :=
  unpack_pack x.unpacked_mem

theorem unpacked_ofFloat {r : Float} {u : UnpackedFloat} (hr : r.toModel = Float.Model.pack u)
    (hu : Below 1024 u) : (ofFloat r).unpacked = u := by
  have hunpack : r.toModel.unpack = u := by
    rw [hr]
    exact unpack_pack (.inl hu)
  by_cases hnan : r.isNaN = true
  · cases u with
    | notANumber =>
      rw [ofFloat, if_pos hnan]
      exact unpacked_of_isNaN (by decide)
    | _ =>
      have hcases : r.toModel.unpack.isNaN = true := hnan
      rw [hunpack] at hcases
      exact absurd hcases Bool.false_ne_true
  · rw [ofFloat, if_neg hnan]
    exact hunpack

theorem isNaN_quiet {x : Binary64} (h : x.isNaN = true) : x.quiet.isNaN = true := by
  have hbits : x.quiet.bits.toNat = x.bits.toNat ||| 0x0008000000000000 := UInt64.toNat_or _ _
  have hle : x.bits.toNat ≤ x.quiet.bits.toNat := hbits ▸ Nat.left_le_or
  have hupper : x.quiet.bits.toNat / 2 ^ 52 = x.bits.toNat / 2 ^ 52 := by
    rw [hbits, ← Nat.shiftRight_eq_div_pow, Nat.shiftRight_or_distrib, Nat.shiftRight_eq_div_pow]
    exact Nat.or_zero _
  have hmagnitude := of_decide_eq_true h
  simp only [infinityMagnitude, magnitude, signWeight] at hmagnitude
  refine decide_eq_true ?_
  simp only [infinityMagnitude, magnitude, signWeight]
  omega

/-- The result of an operation on the bits is that of the operation on what they are taken apart
into, as long as that is something that the format has. -/
theorem unpacked_apply {op : Float → Float → Float}
    {op' : UnpackedFloat → UnpackedFloat → UnpackedFloat} {x y : Binary64}
    (hop : ∀ a b, (op a b).toModel = Float.Model.pack (op' a.toModel.unpack b.toModel.unpack))
    (hleft : ∀ v, op' .notANumber v = .notANumber) (hright : ∀ u, op' u .notANumber = .notANumber)
    (hfits : Below 1024 (op' x.unpacked y.unpacked)) :
    (apply op x y).unpacked = op' x.unpacked y.unpacked := by
  rw [apply]
  split_ifs with hx hy
  · rw [unpacked_of_isNaN (isNaN_quiet hx), unpacked_of_isNaN hx, hleft]
  · rw [unpacked_of_isNaN (isNaN_quiet hy), unpacked_of_isNaN hy, hright]
  · refine unpacked_ofFloat ?_ hfits
    rw [hop, unpack_toModel_toFloat, unpack_toModel_toFloat]

theorem unpacked_add {x y : Binary64}
    (h : Below 1024 (add Format.binary64 x.unpacked y.unpacked)) :
    (x + y).unpacked = add Format.binary64 x.unpacked y.unpacked :=
  unpacked_apply (fun _ _ => rfl) (fun _ => rfl) (fun u => by cases u <;> rfl) h

theorem unpacked_sub {x y : Binary64}
    (h : Below 1024 (sub Format.binary64 x.unpacked y.unpacked)) :
    (x - y).unpacked = sub Format.binary64 x.unpacked y.unpacked :=
  unpacked_apply (fun _ _ => rfl) (fun _ => rfl) (fun u => by cases u <;> rfl) h

theorem unpacked_div {x y : Binary64}
    (h : Below 1024 (div Format.binary64 x.unpacked y.unpacked)) :
    (x / y).unpacked = div Format.binary64 x.unpacked y.unpacked :=
  unpacked_apply (fun _ _ => rfl) (fun _ => rfl) (fun u => by cases u <;> rfl) h

end FullText.Binary64
