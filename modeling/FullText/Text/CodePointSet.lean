/-!
# Sets of code points

The character properties of this library are unions of closed ranges of code points. A
`CodePointSet` lists the ranges in ascending order, so that a membership test may stop at the
first range that starts beyond the code point asked for.

## Main definitions

* `CodePointSet` : disjoint closed ranges in ascending order.
* `CodePointSet.contains` : the membership test.
-/

namespace FullText.Text

/-- A set of code points, as disjoint closed ranges in ascending order. -/
abbrev CodePointSet := List (Nat × Nat)

namespace CodePointSet

/-- Whether a code point lies in one of the ranges. The ranges ascend, so a range that starts
beyond the code point ends the search. -/
def contains : CodePointSet → Nat → Bool
  | [], _ => false
  | (first, last) :: rest, c => decide (first ≤ c) && (decide (c ≤ last) || contains rest c)

@[simp] theorem contains_nil (c : Nat) : contains [] c = false := rfl

/-- A member lies in one of the listed ranges. -/
theorem exists_range_of_contains {s : CodePointSet} {c : Nat} (h : s.contains c = true) :
    ∃ r ∈ s, r.1 ≤ c ∧ c ≤ r.2 := by
  induction s with
  | nil => simp at h
  | cons r rest ih =>
    obtain ⟨first, last⟩ := r
    simp only [contains, Bool.and_eq_true, Bool.or_eq_true, decide_eq_true_eq] at h
    obtain ⟨hfirst, hlast | hrest⟩ := h
    · exact ⟨(first, last), by simp, hfirst, hlast⟩
    · obtain ⟨r, hr, hc⟩ := ih hrest
      exact ⟨r, by simp [hr], hc⟩

end CodePointSet

end FullText.Text
