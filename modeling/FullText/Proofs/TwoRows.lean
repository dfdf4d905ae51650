import FullText.Proofs.EditScripts

/-!
# Edit distances in two rows

The table of distances can be computed in two arrays that swap their roles after each row, with
counters that hold numbers up to a greatest one. Here every step says what can go wrong with it: a
calculation may not fit a counter, and there may be no cell at an index. None of it happens to words
that are shorter than the greatest number, and the two rows then give what the whole table gives.

The rows are laid out as they stand while a row is filled: the cells on the left already belong to
the new row, and those on the right are still left over from two rows above.

## Main definitions

* `EditDistance.TwoRows.distanceWithin` : the edit distance, if it is within a limit.
* `EditDistance.TwoRows.distance` : the edit distance.
* `EditDistance.Matcher` : one word that many others are compared with.

## Main results

* `EditDistance.TwoRows.fillRow_eq` : a row of the table is filled from the one above.
* `EditDistance.TwoRows.distanceWithin_eq` : the two rows give what the table gives.
* `EditDistance.bounded_eq_unbounded` : **a distance within a limit is the distance.**
-/

namespace FullText.EditDistance

/-- What can go wrong in a step. -/
inductive Fault
  /-- The outcome of a calculation does not fit a counter. -/
  | overflow
  /-- There is no cell at the index. -/
  | outOfRange
  deriving Repr, DecidableEq

namespace TwoRows

variable {α : Type} (top : Nat)

/-- The sum of two counters. -/
def add (x y : Nat) : Except Fault Nat := if x + y ≤ top then .ok (x + y) else .error .overflow

/-- The counter before a counter. -/
def before : Nat → Except Fault Nat
  | 0 => .error .overflow
  | i + 1 => .ok i

/-- The cell at an index. -/
def readAt (cells : Array α) (i : Nat) : Except Fault α :=
  match cells[i]? with
  | some x => .ok x
  | none => .error .outOfRange

/-- The cells with another one at an index. -/
def writeAt (cells : Array α) (i : Nat) (x : α) : Except Fault (Array α) :=
  if h : i < cells.size then .ok (cells.set i x) else .error .outOfRange

/-- Fills the cell `j` of the row `i`, and keeps count of the least entry. -/
def fillCell (a b : Array Char) (above : Array Nat) (i : Nat) (state : Array Nat × Nat) (j : Nat) :
    Except Fault (Array Nat × Nat) := do
  let c ← readAt a (← before i)
  let d ← readAt b (← before j)
  let cost := if c = d then 0 else 1
  let deletion ← add top (← readAt above j) 1
  let insertion ← add top (← readAt state.1 (← before j)) 1
  let replacement ← add top (← readAt above (← before j)) cost
  let row ← writeAt state.1 j (min (min deletion insertion) replacement)
  return (row, min state.2 (← readAt row j))

/-- Fills the row `i`, below another one, and finds its least entry. -/
def fillRow (a b : Array Char) (above row : Array Nat) (i : Nat) :
    Except Fault (Array Nat × Nat) := do
  let row ← writeAt row 0 i
  (List.range' 1 b.size).foldlM (fillCell top a b above i) (row, i)

/-- Fills the rows with the given numbers, each over the one before the last, until one of them has
no entry within the limit. -/
def fillRows (a b : Array Char) (limit : Nat) :
    List Nat → Array Nat → Array Nat → Except Fault (Option Nat)
  | [], above, _ => do
    let last ← readAt above b.size
    return if last ≤ limit then some last else none
  | i :: rest, above, row => do
    let (row, least) ← fillRow top a b above row i
    if limit < least then return none
    fillRows a b limit rest row above

/-- The difference of two lengths. -/
def sizeGap (a b : Array Char) : Nat := (a.size - b.size) + (b.size - a.size)

/-- The edit distance of two words, if it is within the limit. -/
def distanceWithin (a b : Array Char) (limit : Nat) : Except Fault (Option Nat) := do
  if limit < sizeGap a b then return none
  if a.size = 0 ∨ b.size = 0 then return some (max a.size b.size)
  let width ← add top b.size 1
  fillRows top a b limit (List.range' 1 a.size) (Array.range width) (Array.replicate width 0)

/-- The edit distance of two words. No distance is above the greatest number. -/
def distance (a b : Array Char) : Except Fault Nat := do
  let within ← distanceWithin top a b top
  return within.getD top

end TwoRows

/-- One word that many others are compared with, and the greatest distance that is accepted. -/
structure Matcher where
  /-- The word. -/
  word : Array Char
  /-- The greatest distance that is accepted. -/
  limit : Nat

namespace Matcher

/-- The matcher of a term. -/
def ofTerm (term : String) (limit : Nat) : Matcher := ⟨term.toList.toArray, limit⟩

/-- The distance to a candidate, if it is accepted. The lengths are compared first. -/
def distance (top : Nat) (m : Matcher) (candidate : String) : Except Fault (Option Nat) :=
  let chars := candidate.toList.toArray
  if m.limit < TwoRows.sizeGap chars m.word then .ok none
  else TwoRows.distanceWithin top m.word chars m.limit

/-- Whether a candidate is accepted. -/
def isMatch (top : Nat) (m : Matcher) (candidate : String) : Except Fault Bool := do
  let distance ← m.distance top candidate
  return distance.isSome

end Matcher

/-! ### Entries of the table -/

/-- An alignment of least cost pairs as many characters as there are. -/
theorem alignmentCost_le_max (a b : List Char) : alignmentCost a b ≤ max a.length b.length := by
  induction a generalizing b with
  | nil => simp
  | cons c a ih =>
    cases b with
    | nil => simp
    | cons d b =>
      have hdiagonal := ih b
      rw [alignmentCost_cons_cons, List.length_cons, List.length_cons]
      split <;> omega

theorem length_cells (a read b : List Char) : (cells a read b).length = b.length := by
  induction b generalizing read with
  | nil => rfl
  | cons d b ih => rw [cells, List.length_cons, ih, List.length_cons]

theorem le_of_mem_cells {a read b : List Char} {x : Nat} (hx : x ∈ cells a read b) :
    x ≤ max a.length (read.length + b.length) := by
  induction b generalizing read with
  | nil => cases hx
  | cons d b ih =>
    rw [cells] at hx
    rcases List.mem_cons.1 hx with rfl | hx
    · have hcost := alignmentCost_le_max a (d :: read)
      rw [List.length_cons] at hcost ⊢
      omega
    · have hrest := ih hx
      rw [List.length_cons] at hrest ⊢
      omega

/-- The entries of the table are not above the lengths of the words. -/
theorem lt_of_mem_tableRow {top : Nat} {a b : List Char} (ha : a.length < top)
    (hb : b.length < top) {x : Nat} (hx : x ∈ tableRow a b) : x < top := by
  rw [tableRow] at hx
  rcases List.mem_cons.1 hx with rfl | hx
  · exact ha
  · have hle := le_of_mem_cells hx
    rw [List.length_nil] at hle
    omega

namespace TwoRows

variable {α : Type} {top : Nat}

/-! ### Single steps -/

theorem add_eq {x y : Nat} (h : x + y ≤ top) : add top x y = .ok (x + y) := if_pos h

theorem readAt_append {xs ys : List α} {x : α} {i : Nat} (hi : xs.length = i) :
    readAt (xs ++ x :: ys).toArray i = .ok x := by
  subst hi
  simp [readAt]

theorem readAt_append_cons {xs ys : List α} {x y : α} {i : Nat} (hi : xs.length = i) :
    readAt (xs ++ x :: y :: ys).toArray (i + 1) = .ok y := by
  have h : readAt ((xs ++ [x]) ++ y :: ys).toArray (i + 1) = .ok y :=
    readAt_append (by rw [List.length_append, List.length_singleton, hi])
  rwa [List.append_assoc, List.singleton_append] at h

theorem writeAt_append_cons {xs ys : List α} {x y z : α} {i : Nat} (hi : xs.length = i) :
    writeAt (xs ++ x :: y :: ys).toArray (i + 1) z = .ok (xs ++ x :: z :: ys).toArray := by
  subst hi
  simp [writeAt]

/-! ### A row -/

/-- A cell is filled from the ones to the left and above. -/
theorem fillCell_eq {read as seen bs : List Char} {c d : Char} {done rest filled stale : List Nat}
    {diagonal above left old least cell : Nat} (hdone : done.length = seen.length)
    (hfilled : filled.length = seen.length) (habove : above < top) (hleft : left < top)
    (hdiagonal : diagonal < top)
    (hcell : min (min (above + 1) (left + 1)) (diagonal + if c = d then 0 else 1) = cell) :
    fillCell top (read ++ c :: as).toArray (seen ++ d :: bs).toArray
        (done ++ diagonal :: above :: rest).toArray (read.length + 1)
        ((filled ++ left :: old :: stale).toArray, least) (seen.length + 1) =
      .ok ((filled ++ left :: cell :: stale).toArray, min least cell) := by
  have hcost : (if c = d then 0 else 1) ≤ 1 := by split <;> omega
  have hdeletion : add top above 1 = .ok (above + 1) := add_eq (by omega)
  have hinsertion : add top left 1 = .ok (left + 1) := add_eq (by omega)
  have hreplacement : add top diagonal (if c = d then 0 else 1) =
      .ok (diagonal + if c = d then 0 else 1) := add_eq (by omega)
  simp only [fillCell, before, readAt_append rfl, readAt_append hdone, readAt_append hfilled,
    readAt_append_cons hdone, readAt_append_cons hfilled, writeAt_append_cons hfilled,
    hdeletion, hinsertion, hreplacement, hcell, bind, Except.bind, pure, Except.pure]

/-- The cells that are left are filled from the left to the right. -/
theorem foldlM_fillCell {read as bs : List Char} {c : Char} {rest stale : List Nat}
    {diagonal left : Nat} (seen : List Char) (done filled : List Nat) (least : Nat)
    (hdone : done.length = seen.length) (hfilled : filled.length = seen.length)
    (hrest : rest.length = bs.length) (hstale : stale.length = bs.length)
    (habove : ∀ x ∈ diagonal :: rest, x < top)
    (hcells : ∀ x ∈ left :: nextCells c left diagonal bs rest, x < top) :
    (List.range' (seen.length + 1) bs.length).foldlM
        (fillCell top (read ++ c :: as).toArray (seen ++ bs).toArray
          (done ++ diagonal :: rest).toArray (read.length + 1))
        ((filled ++ left :: stale).toArray, least) =
      .ok ((filled ++ left :: nextCells c left diagonal bs rest).toArray,
        (nextCells c left diagonal bs rest).foldl min least) := by
  induction bs generalizing seen done rest filled stale diagonal left least with
  | nil =>
    have hnone : nextCells c left diagonal [] rest = [] := by simp [nextCells]
    rw [List.length_eq_zero_iff.1 hstale, hnone]
    rfl
  | cons d bs ih =>
    cases rest with
    | nil => cases hrest
    | cons above rest =>
      cases stale with
      | nil => cases hstale
      | cons old stale =>
        rw [nextCells] at hcells ⊢
        generalize hcell : min (min (above + 1) (left + 1))
          (diagonal + if c = d then 0 else 1) = cell at hcells ⊢
        have hrun := ih (seen ++ [d]) (done ++ [diagonal]) (filled ++ [left]) (min least cell)
          (by simp [hdone]) (by simp [hfilled]) (by simpa using hrest) (by simpa using hstale)
          (fun x hx => habove x (List.mem_cons_of_mem _ hx))
          (fun x hx => hcells x (List.mem_cons_of_mem _ hx))
        simp only [List.append_assoc, List.singleton_append, List.length_append,
          List.length_singleton] at hrun
        rw [List.length_cons, List.range'_succ, List.foldlM_cons,
          fillCell_eq hdone hfilled (habove above (by simp)) (hcells left (by simp))
            (habove diagonal (by simp)) hcell]
        exact hrun

/-- **A row of the table is filled from the one above.** -/
theorem fillRow_eq {read as b : List Char} {c : Char} {row : Array Nat}
    (ha : (read ++ c :: as).length < top) (hb : b.length < top) (hrow : row.size = b.length + 1) :
    fillRow top (read ++ c :: as).toArray b.toArray (tableRow read.reverse b).toArray row
        (read.length + 1) =
      .ok ((tableRow (c :: read.reverse) b).toArray, rowMin (tableRow (c :: read.reverse) b)) := by
  obtain ⟨old, stale, rfl⟩ : ∃ old stale, row = (old :: stale).toArray := by
    cases hlist : row.toList with
    | nil => simp [← Array.length_toList, hlist] at hrow
    | cons old stale => exact ⟨old, stale, by rw [← hlist]⟩
  have hstale : stale.length = b.length := by simpa using hrow
  have hread : (c :: read.reverse).length < top := by
    rw [List.length_append, List.length_cons] at ha
    rw [List.length_cons, List.length_reverse]
    omega
  have habove : tableRow read.reverse b = read.length :: cells read.reverse [] b := by
    rw [tableRow, List.length_reverse]
  have hnext : tableRow (c :: read.reverse) b = (read.length + 1) ::
      nextCells c (read.length + 1) read.length b (cells read.reverse [] b) := by
    rw [← nextRow_tableRow, habove, nextRow]
  have hwrite : writeAt (old :: stale).toArray 0 (read.length + 1) =
      .ok ((read.length + 1) :: stale).toArray := by simp [writeAt]
  rw [fillRow, hwrite, habove, hnext]
  exact foldlM_fillCell [] [] [] (read.length + 1) rfl rfl (length_cells read.reverse [] b) hstale
    (fun x hx => lt_of_mem_tableRow (Nat.lt_of_succ_lt hread) hb (habove ▸ hx))
    (fun x hx => lt_of_mem_tableRow hread hb (hnext ▸ hx))

/-! ### The rows -/

theorem size_tableRow (a b : List Char) : (tableRow a b).toArray.size = b.length + 1 := by
  rw [List.size_toArray, tableRow, List.length_cons, length_cells]

/-- The distance is read off the last cell. -/
theorem readAt_tableRow (a b : List Char) :
    readAt (tableRow a b).toArray b.length = .ok (rowLast (tableRow a b)) := by
  have hlength : (tableRow a b).length = b.length + 1 := by
    rw [tableRow, List.length_cons, length_cells]
  have hlast : (tableRow a b)[b.length]? = (tableRow a b).getLast? := by
    rw [List.getLast?_eq_getElem?, hlength, Nat.add_sub_cancel]
  rw [readAt, List.getElem?_toArray, hlast, rowLast, tableRow, List.getLast?_cons,
    List.getLastD_cons, List.getLastD_eq_getLast?]

/-- The rows that are left are filled from the top to the bottom. -/
theorem fillRows_eq {as b : List Char} {row : Array Nat} (read : List Char) (limit : Nat)
    (ha : (read ++ as).length < top) (hb : b.length < top) (hrow : row.size = b.length + 1) :
    fillRows top (read ++ as).toArray b.toArray limit (List.range' (read.length + 1) as.length)
        (tableRow read.reverse b).toArray row =
      .ok (boundedFrom limit b as (tableRow read.reverse b)) := by
  induction as generalizing read row with
  | nil =>
    rw [List.length_nil, List.range'_zero, fillRows, List.size_toArray, readAt_tableRow,
      boundedFrom]
    rfl
  | cons c as ih =>
    have hrun := ih (read ++ [c]) (by simpa using ha) (size_tableRow read.reverse b)
    rw [List.length_cons, List.range'_succ, fillRows, fillRow_eq ha hb hrow, boundedFrom,
      nextRow_tableRow]
    simp only [bind, Except.bind, pure, Except.pure]
    split
    · rfl
    · simpa using hrun

/-- **The two rows give what the table gives.** -/
theorem distanceWithin_eq {a b : List Char} (limit : Nat) (ha : a.length < top)
    (hb : b.length < top) :
    distanceWithin top a.toArray b.toArray limit = .ok (EditDistance.distanceWithin a b limit) := by
  have hempty : (a.length = 0 ∨ b.length = 0) ↔ (a.isEmpty || b.isEmpty) = true := by
    simp
  have hfirst : Array.range (b.length + 1) = (tableRow [] b).toArray := by
    rw [← firstRow_eq, firstRow, List.toArray_range]
  rw [distanceWithin, EditDistance.distanceWithin, sizeGap, lengthGap, List.size_toArray,
    List.size_toArray, firstRow_eq, add_eq hb]
  simp only [hempty, bind, Except.bind, pure, Except.pure, hfirst]
  split
  · rfl
  · split
    · rfl
    · exact fillRows_eq [] limit ha hb Array.size_replicate

/-- Every distance fits a counter. -/
theorem distance_eq {a b : List Char} (ha : a.length < top) (hb : b.length < top) :
    distance top a.toArray b.toArray = .ok (EditDistance.distance a b) := by
  have hle : EditDistance.distance a b ≤ top := by
    have hmax := alignmentCost_le_max a b
    rw [distance_eq_alignmentCost]
    omega
  rw [distance, distanceWithin_eq top ha hb, EditDistance.distanceWithin_eq, if_pos hle]
  rfl

end TwoRows

/-! ### Matchers -/

namespace Matcher

variable {top : Nat} {a b : String}

theorem distance_ofTerm (limit : Nat) (ha : a.length < top) (hb : b.length < top) :
    (ofTerm a limit).distance top b = .ok (distanceWithin a.toList b.toList limit) := by
  have hgap : TwoRows.sizeGap b.toList.toArray a.toList.toArray =
      lengthGap a.toList b.toList := by
    rw [TwoRows.sizeGap, lengthGap, List.size_toArray, List.size_toArray, Nat.add_comm]
  rw [distance, ofTerm]
  simp only [hgap]
  split
  · next hlimit => rw [distanceWithin, if_pos hlimit]
  · exact TwoRows.distanceWithin_eq limit ha hb

theorem isMatch_ofTerm (limit : Nat) (ha : a.length < top) (hb : b.length < top) :
    (ofTerm a limit).isMatch top b = .ok (isWithin a.toList b.toList limit) := by
  rw [isMatch, distance_ofTerm limit ha hb, isWithin]
  rfl

end Matcher

/-- **A distance within a limit is the distance.** Nothing goes wrong on the way to it, provided
that the words are shorter than the greatest number that a counter holds. -/
theorem bounded_eq_unbounded (a b : String) (limit : Nat) :
    distanceWithin a.toList b.toList limit =
      (if distance a.toList b.toList ≤ limit then some (distance a.toList b.toList) else none) ∧
    (isWithin a.toList b.toList limit = true ↔ distance a.toList b.toList ≤ limit) ∧
    ∀ top, a.length < top → b.length < top →
      TwoRows.distance top a.toList.toArray b.toList.toArray =
        .ok (distance a.toList b.toList) ∧
      TwoRows.distanceWithin top a.toList.toArray b.toList.toArray limit =
        .ok (distanceWithin a.toList b.toList limit) ∧
      (Matcher.ofTerm a limit).distance top b = .ok (distanceWithin a.toList b.toList limit) ∧
      (Matcher.ofTerm a limit).isMatch top b = .ok (isWithin a.toList b.toList limit) := by
  refine ⟨distanceWithin_eq a.toList b.toList limit, ?_, fun top ha hb => ?_⟩
  · rw [isWithin_iff, ← alignmentCost_le_iff, distance_eq_alignmentCost]
  · exact ⟨TwoRows.distance_eq ha hb, TwoRows.distanceWithin_eq limit ha hb,
      Matcher.distance_ofTerm limit ha hb, Matcher.isMatch_ofTerm limit ha hb⟩

/-- Two words at the distance of three, with counters of 64 bits. -/
theorem bounded_eq_unbounded_sample :
    let top := 18446744073709551615
    let kitten := "kitten".toList.toArray
    let sitting := "sitting".toList.toArray
    "kitten".length < top ∧ "sitting".length < top ∧
      TwoRows.distance top kitten sitting = .ok 3 ∧
      TwoRows.distanceWithin top kitten sitting 3 = .ok (some 3) ∧
      TwoRows.distanceWithin top kitten sitting 2 = .ok none ∧
      (Matcher.ofTerm "kitten" 2).isMatch top "sitting" = .ok false := by
  intro top kitten sitting
  have ha : "kitten".length < top := by decide
  have hb : "sitting".length < top := by decide
  have hdistance : distance "kitten".toList "sitting".toList = 3 := by decide +kernel
  obtain ⟨hthree, -, hrows⟩ := bounded_eq_unbounded "kitten" "sitting" 3
  obtain ⟨htwo, -, hrows'⟩ := bounded_eq_unbounded "kitten" "sitting" 2
  obtain ⟨hfull, hwithin, -, -⟩ := hrows top ha hb
  obtain ⟨-, hwithin', -, hmatch⟩ := hrows' top ha hb
  rw [hdistance] at hfull hthree htwo
  refine ⟨ha, hb, hfull, ?_, ?_, ?_⟩
  · rw [hwithin, hthree]
    rfl
  · rw [hwithin', htwo]
    rfl
  · rw [hmatch, isWithin, htwo]
    rfl

end FullText.EditDistance
