import FullText.Posting
import FullText.Proofs.BoundedArithmetic
import FullText.Proofs.NearestNumber

/-!
# Weights of terms are finite

The inverse document frequency is the logarithm of a sum. For numbers of documents that fit into 64
bits the sum is far from the end of the range of double precision, so the logarithm is not infinite,
and what is left of it after clipping is a finite number.

## Main results

* `inverseDocumentFrequency_isFinite` : the weight of a term is finite.
-/

namespace FullText

namespace Binary64

open Float.Model (UnpackedFloat Format)
open Float.Model.UnpackedFloat

/-- For counts that fit into 64 bits, the argument of the logarithm in the weight of a term is
below `2 ^ 80`. -/
theorem below_weight {n df : Binary64} (hn : Below 65 n.unpacked) (hdf : Below 65 df.unpacked)
    (hnonnegative : Nonnegative df.unpacked) :
    Below 80 (one + (n - df + half) / (df + half)).unpacked := by
  have hhalf : Below 65 half.unpacked := below_unpacked (k := 65) (by omega) (by decide)
  have hhalf' : AtLeast 0 half.unpacked := ⟨by decide, by decide⟩
  have hone : Below 72 one.unpacked := below_unpacked (k := 72) (by omega) (by decide)
  have hdifference := below_sub (by omega) hn hdf
  rw [← unpacked_sub (hdifference.mono (by omega))] at hdifference
  have hnumerator := below_add (by omega) hdifference (hhalf.mono (k := 65 + 2) (by omega))
  rw [← unpacked_add (hnumerator.mono (by omega))] at hnumerator
  have hdenominator := below_add (by omega) hdf hhalf
  have hdenominator' := atLeast_add (j := 0) (by omega) hnonnegative hhalf'
  have hsplit := unpacked_add (hdenominator.mono (by omega))
  rw [← hsplit] at hdenominator hdenominator'
  have hquotient := below_div hnumerator hdenominator' hdenominator (by omega)
  rw [← unpacked_div (hquotient.mono (by omega))] at hquotient
  have hsum := below_add (by omega) hone (hquotient.mono (by omega))
  rw [← unpacked_add (hsum.mono (by omega))] at hsum
  exact hsum.mono (by omega)

/-! ### Logarithms -/

theorem log_ne_infinity {x : Binary64} (h : x.isFinite = true ∨ x.isNaN = true) :
    x.log ≠ infinity := by
  rw [log]
  split_ifs with hnan hone
  · intro hquiet
    have := isNaN_quiet hnan
    rw [hquiet] at this
    exact absurd this (by decide)
  · decide
  · have hfinite := h.resolve_right hnan
    rw [hfinite]
    by_cases hresult : ofFloat x.toFloat.log = infinity
    · simp only [hresult]
      decide
    · simp [hresult]

theorem isFinite_clipAtZero {x : Binary64} (h : x ≠ infinity) : x.clipAtZero.isFinite = true := by
  rw [clipAtZero]
  split_ifs with hpositive
  · simp only [less, Bool.and_eq_true, Bool.not_eq_true', decide_eq_true_eq] at hpositive
    obtain ⟨⟨-, hnan⟩, hkey⟩ := hpositive
    have hsign : x.isNegative = false := by
      by_contra hnegative
      rw [Bool.not_eq_false] at hnegative
      have hzero : zero.orderKey = 0 := by decide
      rw [hzero, orderKey, if_pos hnegative] at hkey
      omega
    have hmagnitude : x.magnitude ≠ infinityMagnitude := by
      intro heq
      have hx := ofMagnitude_magnitude x
      rw [hsign, heq] at hx
      exact h hx.symm
    have hle := of_decide_eq_false hnan
    exact decide_eq_true (by omega)
  · decide

end Binary64

/-- **The weight of a term is finite,** for numbers of documents of 64 bits. -/
theorem inverseDocumentFrequency_isFinite {df n : Nat} (hdf : df < UInt64.size)
    (hn : n < UInt64.size) : (inverseDocumentFrequency df n).isFinite = true := by
  obtain ⟨hdfBelow, hdfSign⟩ := Binary64.magnitude_ofNat_lt hdf
  obtain ⟨hnBelow, -⟩ := Binary64.magnitude_ofNat_lt hn
  have hdfFinite : (Binary64.ofNat df).isFinite = true :=
    decide_eq_true (Nat.lt_of_lt_of_le hdfBelow (by decide))
  have hweight := Binary64.below_weight
    (Binary64.below_unpacked (k := 65) (by omega) hnBelow)
    (Binary64.below_unpacked (k := 65) (by omega) hdfBelow)
    (Binary64.nonnegative_unpacked hdfSign hdfFinite)
  exact Binary64.isFinite_clipAtZero
    (Binary64.log_ne_infinity (Binary64.isFinite_or_isNaN hweight))

end FullText
