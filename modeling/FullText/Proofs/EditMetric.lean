import FullText.Proofs.TwoRows
import Mathlib.Order.Bounds.Basic

/-!
# The metric of edits

The edit distance is the length of a shortest sequence of edits that turns one word into the other.
Edits can be undone and put one after the other, so that the distance is a metric on words.

## Main results

* `EditDistance.isLeast_distance` : the distance is the least number of edits.
* `EditDistance.distance_comm`, `EditDistance.distance_eq_zero`, `EditDistance.distance_triangle` :
  the laws of a metric.
* `EditDistance.distance_isLeast_and_metric` : **the edit distance is the true one.**
-/

namespace FullText.EditDistance

/-! ### Sequences of edits -/

/-- An edit can be undone. -/
theorem Edit.symm {a b : List Char} (h : Edit a b) : Edit b a := by
  cases h with
  | insert before c after => exact .delete before c after
  | delete before c after => exact .insert before c after
  | replace before c d after => exact .replace before d c after

/-- Sequences of edits can be put one after the other. -/
theorem EditedBy.trans {m n : Nat} {a b c : List Char} (h : EditedBy m a b)
    (h' : EditedBy n b c) : EditedBy (m + n) a c := by
  induction h' with
  | refl b => exact h
  | edit _ he ih => exact (ih h).edit he

/-- A sequence of edits is undone by undoing the edits from the last to the first. -/
theorem EditedBy.symm {n : Nat} {a b : List Char} (h : EditedBy n a b) : EditedBy n b a := by
  induction h with
  | refl a => exact .refl a
  | @edit n a b c _ he ih =>
    have hone : EditedBy 1 c b := .edit (.refl c) he.symm
    rw [Nat.add_comm]
    exact hone.trans ih

theorem editedBy_zero_iff {a b : List Char} : EditedBy 0 a b ↔ a = b := by
  constructor
  · rintro ⟨⟩
    rfl
  · rintro rfl
    exact .refl a

/-! ### The distance -/

section Metric

variable (a b c : List Char)

/-- There is a sequence of as many edits as the distance. -/
theorem editedBy_distance : EditedBy (distance a b) a b := by
  rw [distance_eq_alignmentCost]
  exact (aligned_alignmentCost a b).editedBy

variable {a b} in
/-- No sequence of edits is shorter. -/
theorem EditedBy.distance_le {n : Nat} (h : EditedBy n a b) : distance a b ≤ n := by
  rw [distance_eq_alignmentCost]
  exact alignmentCost_le_iff.2 ⟨n, Nat.le_refl n, h⟩

/-- **The distance is the least number of edits.** -/
theorem isLeast_distance : IsLeast {n | EditedBy n a b} (distance a b) :=
  ⟨editedBy_distance a b, fun _ h => EditedBy.distance_le h⟩

theorem distance_comm : distance a b = distance b a :=
  Nat.le_antisymm (editedBy_distance b a).symm.distance_le (editedBy_distance a b).symm.distance_le

theorem distance_eq_zero : distance a b = 0 ↔ a = b := by
  rw [← editedBy_zero_iff]
  constructor
  · intro h
    rw [← h]
    exact editedBy_distance a b
  · intro h
    exact Nat.le_zero.1 h.distance_le

theorem distance_triangle : distance a c ≤ distance a b + distance b c :=
  ((editedBy_distance a b).trans (editedBy_distance b c)).distance_le

end Metric

/-- **The edit distance is the true one.** The two rows compute, without a fault, the length of a
shortest sequence of edits that turns one word into the other, and this is a metric. -/
theorem distance_isLeast_and_metric (a b : String) :
    (∀ top, a.length < top → b.length < top →
      TwoRows.distance top a.toList.toArray b.toList.toArray =
        .ok (distance a.toList b.toList)) ∧
    IsLeast {n | EditedBy n a.toList b.toList} (distance a.toList b.toList) ∧
    distance a.toList b.toList = distance b.toList a.toList ∧
    (distance a.toList b.toList = 0 ↔ a = b) ∧
    ∀ c : String, distance a.toList c.toList ≤
      distance a.toList b.toList + distance b.toList c.toList := by
  refine ⟨fun top ha hb => TwoRows.distance_eq ha hb, isLeast_distance _ _, distance_comm _ _, ?_,
    fun c => distance_triangle _ _ _⟩
  rw [distance_eq_zero, String.toList_inj]

/-- A transposition takes two edits. -/
theorem distance_isLeast_and_metric_sample :
    "search".length < 18446744073709551615 ∧ "serach".length < 18446744073709551615 ∧
      TwoRows.distance 18446744073709551615 "search".toList.toArray "serach".toList.toArray =
        .ok 2 ∧
      IsLeast {n | EditedBy n "search".toList "serach".toList} 2 := by
  have ha : "search".length < 18446744073709551615 := by decide
  have hb : "serach".length < 18446744073709551615 := by decide
  have hdistance : distance "search".toList "serach".toList = 2 := by decide +kernel
  obtain ⟨hrows, hleast, -⟩ := distance_isLeast_and_metric "search" "serach"
  rw [← hdistance]
  exact ⟨ha, hb, hrows _ ha hb, hleast⟩

end FullText.EditDistance
