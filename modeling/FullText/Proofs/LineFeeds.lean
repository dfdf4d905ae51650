import FullText.Proofs.GlobLanguage
import Mathlib

/-!
# Line feeds in patterns and terms

A star should stand for any text at all, but it stops at the end of a line. Which terms a pattern
misses for that reason is told by a count. The literal runs of a pattern that span a term account
for as many line feeds as the pattern has, so all others lie in the stretches, where none may be:
a pattern matches exactly those of the terms spanned by its runs that have no more line feeds than
the pattern itself.

## Main results

* `Text.sum_count_splitWhere` : the pieces of a text hold each element as often as the text does.
* `Glob.SpannedBy.sum_count_le` : a spanned text holds each character at least as often as the runs.
* `Glob.spannedBy_ne_iff` : the stretches are free of a character iff the runs account for it.
* `Glob.accepts_compiled_iff` : which terms the pattern of a text matches.
* `Glob.lineFeed_refused` : a term that is spanned and not matched.
-/

namespace FullText

/-- The pieces of a text hold each element as often as the text does, separators apart. -/
theorem Text.sum_count_splitWhere {α : Type} [DecidableEq α] {p : α → Bool} {a : α}
    (ha : p a = false) (as : List α) :
    ((splitWhere p as).map (·.count a)).sum = as.count a := by
  induction as with
  | nil => rfl
  | cons b as ih =>
    by_cases hb : p b = true
    · have hne : b ≠ a := by
        rintro rfl
        exact absurd ha (by simp [hb])
      rw [splitWhere_cons_of_pos hb, List.map_cons, List.sum_cons, ih, List.count_nil, Nat.zero_add,
        List.count_cons_of_ne hne]
    · obtain ⟨w, ws, hw⟩ := exists_splitWhere_eq_cons p as
      rw [hw, List.map_cons, List.sum_cons] at ih
      rw [splitWhere_cons_of_neg (Bool.eq_false_iff.2 hb), hw, List.modifyHead_cons, List.map_cons,
        List.sum_cons, List.count_cons, List.count_cons, ← ih]
      omega

namespace Glob

/-! ### Counting in spanned texts -/

/-- A spanned text holds each character at least as often as the runs together. -/
theorem SpannedBy.sum_count_le {allowed : Char → Prop} (a : Char) : (runs : List (List Char)) →
    {t : List Char} → SpannedBy allowed runs t → (runs.map (·.count a)).sum ≤ t.count a
  | [], _, _ => Nat.zero_le _
  | [run], t, h => by
    obtain rfl : t = run := h
    simp
  | run :: next :: runs, t, ⟨stretch, rest, ht, _, h⟩ => by
    have hrest := SpannedBy.sum_count_le a (next :: runs) h
    rw [ht, List.count_append, List.count_append, List.map_cons, List.sum_cons]
    omega

/-- The stretches between the runs are free of a character exactly if the runs account for all of
its occurrences in the text. -/
theorem spannedBy_ne_iff {a : Char} : {runs : List (List Char)} → {t : List Char} →
    (SpannedBy (· ≠ a) runs t ↔ Spanned runs t ∧ t.count a = (runs.map (·.count a)).sum)
  | [], t => by
    refine ⟨fun h => ?_, And.left⟩
    obtain rfl : t = [] := h
    exact ⟨rfl, rfl⟩
  | [run], t => by
    refine ⟨fun h => ?_, And.left⟩
    obtain rfl : t = run := h
    exact ⟨rfl, by simp⟩
  | run :: next :: runs, t => by
    rw [List.map_cons, List.sum_cons]
    constructor
    · rintro ⟨stretch, rest, rfl, hs, h⟩
      obtain ⟨hspan, hcount⟩ := spannedBy_ne_iff.1 h
      have hstretch : stretch.count a = 0 := List.count_eq_zero.2 fun ha => hs a ha rfl
      refine ⟨⟨stretch, rest, rfl, fun _ _ => trivial, hspan⟩, ?_⟩
      rw [List.count_append, List.count_append, hstretch, hcount, Nat.add_zero]
    · rintro ⟨⟨stretch, rest, rfl, -, h⟩, hcount⟩
      -- the rest needs all it has for its own runs, so nothing is left for the stretch
      have hrest := SpannedBy.sum_count_le a (next :: runs) h
      rw [List.count_append, List.count_append] at hcount
      have hstretch : stretch.count a = 0 := by omega
      refine ⟨stretch, rest, rfl, fun c hc => ?_, spannedBy_ne_iff.2 ⟨h, by omega⟩⟩
      rintro rfl
      exact List.count_eq_zero.1 hstretch hc

/-! ### Terms -/

/-- **Which terms a pattern matches.** A term is matched exactly if the literal runs of the pattern
span it, with arbitrary stretches in place of the stars, and it has as many line feeds as the
pattern. So among the terms with no more line feeds than the pattern all that are spanned are
matched, and of the others none is. -/
theorem accepts_compiled_iff {pattern : String} {g : Glob} (hg : compile pattern = .ok g)
    (term : String) :
    (g.accepts term.toList = true ↔
      Spanned (Text.splitWhere isStar pattern.toList) term.toList ∧
        term.toList.count '\n' = pattern.toList.count '\n') ∧
    (term.toList.count '\n' ≤ pattern.toList.count '\n' →
      (g.accepts term.toList = true ↔
        Spanned (Text.splitWhere isStar pattern.toList) term.toList)) := by
  have hsum : ((Text.splitWhere isStar pattern.toList).map (·.count '\n')).sum =
      pattern.toList.count '\n' := Text.sum_count_splitWhere rfl _
  have hmatches : g.accepts term.toList = true ↔
      Spanned (Text.splitWhere isStar pattern.toList) term.toList ∧
        term.toList.count '\n' = pattern.toList.count '\n' := by
    rw [accepts_iff_matches, chars_of_compile hg, matches_iff_spannedBy, spannedBy_ne_iff, hsum]
  refine ⟨hmatches, fun hcount => hmatches.trans (and_iff_left_of_imp fun hspan => ?_)⟩
  have hle := SpannedBy.sum_count_le '\n' _ hspan
  omega

theorem accepts_compiled_iff_sample :
    ∃ g, compile "c++*\nx*" = .ok g ∧
      g.accepts "c++17\nx".toList = true ∧ g.accepts "c++\n\nx".toList = false := by
  have hg : compile "c++*\nx*" = .ok ⟨"c++*\nx*".toList⟩ := rfl
  refine ⟨_, hg, (accepts_compiled_iff hg "c++17\nx").1.2 ⟨?_, by decide⟩, ?_⟩
  · exact ⟨"17".toList, "\nx".toList, by decide, fun _ _ => trivial,
      [], [], by decide, fun _ _ => trivial, rfl⟩
  · refine Bool.eq_false_iff.2 fun h => ?_
    exact absurd ((accepts_compiled_iff hg "c++\n\nx").1.1 h).2 (by decide)

/-- A term with a line feed in place of the star is spanned by the runs of the pattern, and is not
matched. -/
theorem lineFeed_refused :
    ∃ g, compile "a*b" = .ok g ∧
      Spanned (Text.splitWhere isStar "a*b".toList) "a\nb".toList ∧
      g.accepts "a\nb".toList = false := by
  refine ⟨_, rfl, ⟨['\n'], ['b'], by decide, fun _ _ => trivial, rfl⟩, ?_⟩
  decide

end Glob

end FullText
