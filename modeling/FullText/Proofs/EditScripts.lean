import FullText.EditDistance
import Mathlib.Data.List.Basic
import Mathlib.Order.Nat

/-!
# Edits of words

An edit inserts, deletes or replaces one character of a word. The table of distances is compared
here with sequences of edits. A sequence can be laid out as an alignment of the two words, in which
the characters are paired from the left; the recurrence that the table is computed by finds the
cheapest alignment. The rows of the table belong to prefixes of the words, so that the recurrence
meets the words in reverse.

## Main definitions

* `EditDistance.Edit` : one edit of a word.
* `EditDistance.EditedBy` : a sequence of edits, with their number.
* `EditDistance.Aligned` : an alignment of two words, with its cost.
* `EditDistance.alignmentCost` : the least cost of an alignment.

## Main results

* `EditDistance.alignmentCost_le_iff` : the least cost of an alignment is the least number of edits.
* `EditDistance.distance_eq_alignmentCost` : the table computes it.
* `EditDistance.distanceWithin_eq` : stopping early does not change the outcome.
* `EditDistance.isWithin_iff` : a word is within a limit if so many edits lead to it.
-/

namespace FullText.EditDistance

/-! ### Edits -/

/-- One edit of a word. -/
inductive Edit : List Char → List Char → Prop
  /-- A character is inserted. -/
  | insert (before : List Char) (c : Char) (after : List Char) :
      Edit (before ++ after) (before ++ c :: after)
  /-- A character is deleted. -/
  | delete (before : List Char) (c : Char) (after : List Char) :
      Edit (before ++ c :: after) (before ++ after)
  /-- A character is replaced. -/
  | replace (before : List Char) (c d : Char) (after : List Char) :
      Edit (before ++ c :: after) (before ++ d :: after)

/-- A number of edits in sequence. -/
inductive EditedBy : Nat → List Char → List Char → Prop
  /-- No edit. -/
  | refl (a : List Char) : EditedBy 0 a a
  /-- One more edit. -/
  | edit {n a b c} (h : EditedBy n a b) (he : Edit b c) : EditedBy (n + 1) a c

/-- An edit goes on behind another character. -/
theorem Edit.cons {a b : List Char} (h : Edit a b) (c : Char) : Edit (c :: a) (c :: b) := by
  cases h with
  | insert before d after => exact .insert (c :: before) d after
  | delete before d after => exact .delete (c :: before) d after
  | replace before d e after => exact .replace (c :: before) d e after

/-- An edit of a word is an edit of the word read backwards. -/
theorem Edit.reverse {a b : List Char} (h : Edit a b) : Edit a.reverse b.reverse := by
  cases h with
  | insert before c after =>
    have := Edit.insert after.reverse c before.reverse
    simpa using this
  | delete before c after =>
    have := Edit.delete after.reverse c before.reverse
    simpa using this
  | replace before c d after =>
    have := Edit.replace after.reverse c d before.reverse
    simpa using this

theorem EditedBy.cons {n : Nat} {a b : List Char} (h : EditedBy n a b) (c : Char) :
    EditedBy n (c :: a) (c :: b) := by
  induction h with
  | refl a => exact .refl (c :: a)
  | edit _ he ih => exact ih.edit (he.cons c)

theorem EditedBy.reverse {n : Nat} {a b : List Char} (h : EditedBy n a b) :
    EditedBy n a.reverse b.reverse := by
  induction h with
  | refl a => exact .refl a.reverse
  | edit _ he ih => exact ih.edit he.reverse

theorem editedBy_reverse_iff {n : Nat} {a b : List Char} :
    EditedBy n a.reverse b.reverse ↔ EditedBy n a b :=
  ⟨fun h => by simpa using h.reverse, EditedBy.reverse⟩

/-! ### Alignments -/

/-- An alignment of two words, with its cost. The characters of the words are paired or skipped
from the left; all pairs but those of equal characters cost one. -/
inductive Aligned : List Char → List Char → Nat → Prop
  /-- Both words are used up. -/
  | nil : Aligned [] [] 0
  /-- Two equal characters are paired. -/
  | keep {a b n} (c : Char) (h : Aligned a b n) : Aligned (c :: a) (c :: b) n
  /-- Two characters are paired. -/
  | replace {a b n} (c d : Char) (h : Aligned a b n) : Aligned (c :: a) (d :: b) (n + 1)
  /-- A character of the second word is skipped. -/
  | insert {a b n} (d : Char) (h : Aligned a b n) : Aligned a (d :: b) (n + 1)
  /-- A character of the first word is skipped. -/
  | delete {a b n} (c : Char) (h : Aligned a b n) : Aligned (c :: a) b (n + 1)

theorem Aligned.refl (a : List Char) : Aligned a a 0 := by
  induction a with
  | nil => exact .nil
  | cons c a ih => exact .keep c ih

/-- What an edit does to the first character of a word, or behind it. -/
private theorem edit_cases {b z : List Char} (h : Edit b z) :
    (∃ c, z = c :: b) ∨ (∃ c, b = c :: z) ∨
      (∃ c d y, b = c :: y ∧ z = d :: y) ∨ ∃ c y w, b = c :: y ∧ z = c :: w ∧ Edit y w := by
  cases h with
  | insert before c after =>
    cases before with
    | nil => exact .inl ⟨c, rfl⟩
    | cons d before => exact .inr (.inr (.inr ⟨d, _, _, rfl, rfl, .insert before c after⟩))
  | delete before c after =>
    cases before with
    | nil => exact .inr (.inl ⟨c, rfl⟩)
    | cons d before => exact .inr (.inr (.inr ⟨d, _, _, rfl, rfl, .delete before c after⟩))
  | replace before c d after =>
    cases before with
    | nil => exact .inr (.inr (.inl ⟨c, d, after, rfl, rfl⟩))
    | cons e before => exact .inr (.inr (.inr ⟨e, _, _, rfl, rfl, .replace before c d after⟩))

/-- A further edit of the second word makes an alignment dearer by one at most. -/
theorem Aligned.edit {a b z : List Char} {n : Nat} (h : Aligned a b n) (he : Edit b z) :
    ∃ m, m ≤ n + 1 ∧ Aligned a z m := by
  induction h generalizing z with
  | nil =>
    rcases edit_cases he with ⟨c, rfl⟩ | ⟨c, hc⟩ | ⟨c, d, y, hy, -⟩ | ⟨c, y, w, hy, -, -⟩
    · exact ⟨1, by omega, .insert c .nil⟩
    · cases hc
    · cases hy
    · cases hy
  | @keep a b n c h ih =>
    rcases edit_cases he with ⟨d, rfl⟩ | ⟨d, hd⟩ | ⟨d, e, y, hy, rfl⟩ | ⟨d, y, w, hy, rfl, hw⟩
    · exact ⟨n + 1, by omega, .insert d (.keep c h)⟩
    · obtain ⟨rfl, rfl⟩ := List.cons.inj hd
      exact ⟨n + 1, by omega, .delete c h⟩
    · obtain ⟨rfl, rfl⟩ := List.cons.inj hy
      exact ⟨n + 1, by omega, .replace c e h⟩
    · obtain ⟨rfl, rfl⟩ := List.cons.inj hy
      obtain ⟨m, hm, haligned⟩ := ih hw
      exact ⟨m, hm, .keep c haligned⟩
  | @replace a b n c f h ih =>
    rcases edit_cases he with ⟨d, rfl⟩ | ⟨d, hd⟩ | ⟨d, e, y, hy, rfl⟩ | ⟨d, y, w, hy, rfl, hw⟩
    · exact ⟨n + 2, by omega, .insert d (.replace c f h)⟩
    · obtain ⟨rfl, rfl⟩ := List.cons.inj hd
      exact ⟨n + 1, by omega, .delete c h⟩
    · obtain ⟨rfl, rfl⟩ := List.cons.inj hy
      exact ⟨n + 1, by omega, .replace c e h⟩
    · obtain ⟨rfl, rfl⟩ := List.cons.inj hy
      obtain ⟨m, hm, haligned⟩ := ih hw
      exact ⟨m + 1, by omega, .replace c f haligned⟩
  | @insert a b n f h ih =>
    rcases edit_cases he with ⟨d, rfl⟩ | ⟨d, hd⟩ | ⟨d, e, y, hy, rfl⟩ | ⟨d, y, w, hy, rfl, hw⟩
    · exact ⟨n + 2, by omega, .insert d (.insert f h)⟩
    · obtain ⟨rfl, rfl⟩ := List.cons.inj hd
      exact ⟨n, by omega, h⟩
    · obtain ⟨rfl, rfl⟩ := List.cons.inj hy
      exact ⟨n + 1, by omega, .insert e h⟩
    · obtain ⟨rfl, rfl⟩ := List.cons.inj hy
      obtain ⟨m, hm, haligned⟩ := ih hw
      exact ⟨m + 1, by omega, .insert f haligned⟩
  | @delete a b n c h ih =>
    obtain ⟨m, hm, haligned⟩ := ih he
    exact ⟨m + 1, by omega, .delete c haligned⟩

/-- A sequence of edits can be laid out as an alignment that does not cost more. -/
theorem EditedBy.aligned {n : Nat} {a b : List Char} (h : EditedBy n a b) :
    ∃ m, m ≤ n ∧ Aligned a b m := by
  induction h with
  | refl a => exact ⟨0, Nat.le_refl 0, .refl a⟩
  | edit _ he ih =>
    obtain ⟨m, hm, haligned⟩ := ih
    obtain ⟨k, hk, hedited⟩ := haligned.edit he
    exact ⟨k, by omega, hedited⟩

/-- The cost of an alignment is a number of edits. -/
theorem Aligned.editedBy {a b : List Char} {n : Nat} (h : Aligned a b n) : EditedBy n a b := by
  induction h with
  | nil => exact .refl []
  | keep c _ ih => exact ih.cons c
  | @replace a b n c d _ ih => exact (ih.cons c).edit (.replace [] c d b)
  | @insert a b n d _ ih => exact ih.edit (.insert [] d b)
  | @delete a b n c _ ih => exact (ih.cons c).edit (.delete [] c b)

/-! ### The least cost -/

/-- The least cost of an alignment of two words, by the last step that the table takes. -/
def alignmentCost : List Char → List Char → Nat
  | [], b => b.length
  | c :: a, [] => a.length + 1
  | c :: a, d :: b =>
    min (min (alignmentCost a (d :: b) + 1) (alignmentCost (c :: a) b + 1))
      (alignmentCost a b + if c = d then 0 else 1)
termination_by a b => a.length + b.length

@[simp] theorem alignmentCost_nil_left (b : List Char) : alignmentCost [] b = b.length := by
  rw [alignmentCost]

@[simp] theorem alignmentCost_nil_right (a : List Char) : alignmentCost a [] = a.length := by
  cases a <;> simp [alignmentCost]

theorem alignmentCost_cons_cons (c d : Char) (a b : List Char) :
    alignmentCost (c :: a) (d :: b) =
      min (min (alignmentCost a (d :: b) + 1) (alignmentCost (c :: a) b + 1))
        (alignmentCost a b + if c = d then 0 else 1) := by
  rw [alignmentCost]

theorem aligned_nil_left (b : List Char) : Aligned [] b b.length := by
  induction b with
  | nil => exact .nil
  | cons d b ih => exact .insert d ih

/-- There is an alignment of the least cost. -/
theorem aligned_alignmentCost : ∀ a b : List Char, Aligned a b (alignmentCost a b)
  | [], b => by
    rw [alignmentCost_nil_left]
    exact aligned_nil_left b
  | c :: a, [] => by
    have h := aligned_alignmentCost a []
    rw [alignmentCost_nil_right] at h ⊢
    exact .delete c h
  | c :: a, d :: b => by
    have habove := aligned_alignmentCost a (d :: b)
    have hleft := aligned_alignmentCost (c :: a) b
    have hdiagonal := aligned_alignmentCost a b
    rw [alignmentCost_cons_cons]
    rcases Nat.le_total (min (alignmentCost a (d :: b) + 1) (alignmentCost (c :: a) b + 1))
        (alignmentCost a b + if c = d then 0 else 1) with hle | hle
    · rw [Nat.min_eq_left hle]
      rcases Nat.le_total (alignmentCost a (d :: b) + 1) (alignmentCost (c :: a) b + 1)
        with hle | hle
      · rw [Nat.min_eq_left hle]
        exact .delete c habove
      · rw [Nat.min_eq_right hle]
        exact .insert d hleft
    · rw [Nat.min_eq_right hle]
      by_cases hcd : c = d
      · rw [if_pos hcd, hcd]
        exact .keep d hdiagonal
      · rw [if_neg hcd]
        exact .replace c d hdiagonal
termination_by a b => a.length + b.length

/-- No alignment costs less. -/
theorem Aligned.alignmentCost_le {a b : List Char} {n : Nat} (h : Aligned a b n) :
    alignmentCost a b ≤ n := by
  induction h with
  | nil => simp
  | keep c _ ih =>
    rw [alignmentCost_cons_cons, if_pos rfl]
    omega
  | replace c d _ ih =>
    rw [alignmentCost_cons_cons]
    split <;> omega
  | @insert a b n d _ ih =>
    cases a with
    | nil =>
      rw [alignmentCost_nil_left] at ih ⊢
      rw [List.length_cons]
      omega
    | cons c a =>
      rw [alignmentCost_cons_cons]
      omega
  | @delete a b n c _ ih =>
    cases b with
    | nil =>
      rw [alignmentCost_nil_right] at ih ⊢
      rw [List.length_cons]
      omega
    | cons d b =>
      rw [alignmentCost_cons_cons]
      omega

/-- **The least cost of an alignment is the least number of edits.** -/
theorem alignmentCost_le_iff {a b : List Char} {n : Nat} :
    alignmentCost a b ≤ n ↔ ∃ m, m ≤ n ∧ EditedBy m a b := by
  constructor
  · intro h
    exact ⟨alignmentCost a b, h, (aligned_alignmentCost a b).editedBy⟩
  · rintro ⟨m, hm, h⟩
    obtain ⟨k, hk, haligned⟩ := h.aligned
    have := haligned.alignmentCost_le
    omega

theorem alignmentCost_reverse (a b : List Char) :
    alignmentCost a.reverse b.reverse = alignmentCost a b := by
  refine eq_of_forall_ge_iff fun n => ?_
  simp only [alignmentCost_le_iff, editedBy_reverse_iff]

/-! ### The table -/

/-- The cells of a row behind those for the prefix of the second word that is read backwards. -/
def cells (a : List Char) : List Char → List Char → List Nat
  | _, [] => []
  | read, d :: rest => alignmentCost a (d :: read) :: cells a (d :: read) rest

/-- The row for a prefix of the first word, read backwards. -/
def tableRow (a b : List Char) : List Nat := a.length :: cells a [] b

theorem nextCells_eq (c : Char) (a read b : List Char) :
    nextCells c (alignmentCost (c :: a) read) (alignmentCost a read) b (cells a read b) =
      cells (c :: a) read b := by
  induction b generalizing read with
  | nil => rfl
  | cons d b ih => rw [cells, nextCells, ← alignmentCost_cons_cons, ih, cells]

/-- Each row is computed from the one above. -/
theorem nextRow_tableRow (c : Char) (a b : List Char) :
    nextRow c b (tableRow a b) = tableRow (c :: a) b := by
  have hcells := nextCells_eq c a [] b
  rw [alignmentCost_nil_right, alignmentCost_nil_right] at hcells
  rw [tableRow, nextRow, tableRow, ← hcells, List.length_cons]

theorem finalRow_tableRow (a read b : List Char) :
    finalRow b a (tableRow read b) = tableRow (a.reverse ++ read) b := by
  induction a generalizing read with
  | nil => rfl
  | cons c a ih => rw [finalRow, nextRow_tableRow, ih, List.reverse_cons, List.append_assoc,
      List.singleton_append]

theorem firstRow_eq (b : List Char) : firstRow b = tableRow [] b := by
  have hcells (read : List Char) :
      cells [] read b = List.range' (read.length + 1) b.length := by
    induction b generalizing read with
    | nil => rfl
    | cons d b ih => rw [cells, ih, alignmentCost_nil_left, List.length_cons, List.length_cons,
        List.range'_succ]
  rw [firstRow, tableRow, hcells, List.range_eq_range', List.range'_succ]
  rfl

theorem rowLast_tableRow (a b : List Char) :
    rowLast (tableRow a b) = alignmentCost a b.reverse := by
  have hcells (first : Nat) (read : List Char) (hfirst : first = alignmentCost a read) :
      (first :: cells a read b).getLastD 0 = alignmentCost a (b.reverse ++ read) := by
    induction b generalizing first read with
    | nil => exact hfirst
    | cons d b ih =>
      rw [cells, List.reverse_cons, List.append_assoc, List.singleton_append, ← ih _ _ rfl]
      rfl
  rw [rowLast, tableRow, hcells _ _ (alignmentCost_nil_right a).symm, List.append_nil]

/-- **The table computes the least cost of an alignment.** -/
theorem distance_eq_alignmentCost (a b : List Char) : distance a b = alignmentCost a b := by
  rw [distance, firstRow_eq, finalRow_tableRow, rowLast_tableRow, List.append_nil,
    alignmentCost_reverse]

/-! ### Stopping early -/

theorem rowMin_le {row : List Nat} {x : Nat} (hx : x ∈ row) : rowMin row ≤ x := by
  have hfold (rest : List Nat) (first : Nat) :
      rest.foldl min first ≤ first ∧ ∀ y ∈ rest, rest.foldl min first ≤ y := by
    induction rest generalizing first with
    | nil => simp
    | cons y rest ih =>
      obtain ⟨hfirst, hrest⟩ := ih (min first y)
      simp only [List.foldl_cons, List.mem_cons, forall_eq_or_imp]
      exact ⟨by omega, by omega, hrest⟩
  cases row with
  | nil => cases hx
  | cons first rest =>
    rcases List.mem_cons.1 hx with rfl | hx
    · exact (hfold rest x).1
    · exact (hfold rest first).2 x hx

/-- The cells of a row are not below the cells that they are computed from. -/
theorem le_of_mem_nextCells {m : Nat} {c : Char} {left diagonal : Nat} {b : List Char}
    {row : List Nat} (hleft : m ≤ left) (hdiagonal : m ≤ diagonal) (hrow : ∀ x ∈ row, m ≤ x)
    {x : Nat} (hx : x ∈ nextCells c left diagonal b row) : m ≤ x := by
  induction b generalizing left diagonal row with
  | nil => simp [nextCells] at hx
  | cons d b ih =>
    cases row with
    | nil => simp [nextCells] at hx
    | cons above rest =>
      rw [nextCells] at hx
      have habove : m ≤ above := hrow above List.mem_cons_self
      have hcell : m ≤ min (min (above + 1) (left + 1)) (diagonal + if c = d then 0 else 1) := by
        omega
      rcases List.mem_cons.1 hx with rfl | hx
      · exact hcell
      · exact ih hcell habove (fun y hy => hrow y (List.mem_cons_of_mem _ hy)) hx

theorem le_of_mem_nextRow {m : Nat} {c : Char} {b : List Char} {row : List Nat}
    (hrow : ∀ x ∈ row, m ≤ x) {x : Nat} (hx : x ∈ nextRow c b row) : m ≤ x := by
  cases row with
  | nil => cases hx
  | cons first rest =>
    have hfirst : m ≤ first := hrow first List.mem_cons_self
    rcases List.mem_cons.1 hx with rfl | hx
    · omega
    · exact le_of_mem_nextCells (by omega) hfirst
        (fun y hy => hrow y (List.mem_cons_of_mem _ hy)) hx

/-- No later row goes below the least entry of a row. -/
theorem le_of_mem_finalRow {m : Nat} {b a : List Char} {row : List Nat}
    (hrow : ∀ x ∈ row, m ≤ x) : ∀ x ∈ finalRow b a row, m ≤ x := by
  induction a generalizing row with
  | nil => exact hrow
  | cons c a ih => exact ih fun x hx => le_of_mem_nextRow hrow hx

theorem rowLast_mem {row : List Nat} (hrow : row ≠ []) : rowLast row ∈ row := by
  cases row with
  | nil => exact absurd rfl hrow
  | cons first rest =>
    rw [rowLast, List.getLastD_cons]
    exact List.getLastD_mem_cons

theorem nextRow_ne_nil (c : Char) (b : List Char) {row : List Nat} (hrow : row ≠ []) :
    nextRow c b row ≠ [] := by
  cases row with
  | nil => exact absurd rfl hrow
  | cons first rest => exact List.cons_ne_nil _ _

theorem finalRow_ne_nil (a b : List Char) {row : List Nat} (hrow : row ≠ []) :
    finalRow b a row ≠ [] := by
  induction a generalizing row with
  | nil => exact hrow
  | cons c a ih => exact ih (nextRow_ne_nil c b hrow)

/-- Stopping at a row above the limit gives the outcome that the last row gives. -/
theorem boundedFrom_eq (limit : Nat) (b a : List Char) {row : List Nat} (hrow : row ≠ []) :
    boundedFrom limit b a row =
      if rowLast (finalRow b a row) ≤ limit then some (rowLast (finalRow b a row)) else none := by
  induction a generalizing row with
  | nil => rfl
  | cons c a ih =>
    have hnext := nextRow_ne_nil c b hrow
    rw [boundedFrom, finalRow]
    split
    · next hlimit =>
      have hlast : rowMin (nextRow c b row) ≤ rowLast (finalRow b a (nextRow c b row)) :=
        le_of_mem_finalRow (fun x hx => rowMin_le hx) _ (rowLast_mem (finalRow_ne_nil a b hnext))
      rw [if_neg (by omega)]
    · exact ih hnext

/-- The lengths of two words differ by their least number of edits at most. -/
theorem Aligned.lengthGap_le {a b : List Char} {n : Nat} (h : Aligned a b n) :
    lengthGap a b ≤ n := by
  rw [lengthGap]
  induction h with
  | nil => simp
  | keep c _ ih => simpa using ih
  | replace c d _ ih => simp only [List.length_cons]; omega
  | insert d _ ih => simp only [List.length_cons]; omega
  | delete c _ ih => simp only [List.length_cons]; omega

/-- **Stopping early does not change the outcome.** -/
theorem distanceWithin_eq (a b : List Char) (limit : Nat) :
    distanceWithin a b limit = if distance a b ≤ limit then some (distance a b) else none := by
  have hgap := (aligned_alignmentCost a b).lengthGap_le
  rw [← distance_eq_alignmentCost] at hgap
  rw [distanceWithin]
  split
  · next hlimit => rw [if_neg (by omega)]
  · next hlimit =>
    split
    · next hempty =>
      have hmax : distance a b = max a.length b.length := by
        rw [distance_eq_alignmentCost]
        rcases Bool.or_eq_true_iff.1 hempty with ha | hb
        · rw [List.isEmpty_iff.1 ha, alignmentCost_nil_left, List.length_nil, Nat.zero_max]
        · rw [List.isEmpty_iff.1 hb, alignmentCost_nil_right, List.length_nil, Nat.max_zero]
      rw [hmax, if_pos]
      rw [lengthGap] at hlimit
      rcases Bool.or_eq_true_iff.1 hempty with ha | hb
      · rw [List.isEmpty_iff.1 ha] at hlimit ⊢
        simp only [List.length_nil] at hlimit ⊢
        omega
      · rw [List.isEmpty_iff.1 hb] at hlimit ⊢
        simp only [List.length_nil] at hlimit ⊢
        omega
    · exact boundedFrom_eq limit b a (by rw [firstRow_eq]; exact List.cons_ne_nil _ _)

/-- **A word is within a limit of another one exactly if so many edits lead to it.** -/
theorem isWithin_iff {a b : List Char} {limit : Nat} :
    isWithin a b limit = true ↔ ∃ n, n ≤ limit ∧ EditedBy n a b := by
  rw [isWithin, distanceWithin_eq, distance_eq_alignmentCost, ← alignmentCost_le_iff]
  split <;> simp_all

end FullText.EditDistance
