import FullText.Proofs.GlobLanguage
import FullText.Tokenizer
import Mathlib

/-!
# Where the stars of a text are

A text is classified by the places of its stars: the first character, the last one, and all between
them. The classification takes the text apart at its ends. Two other ways lead to the same result.
One is a single pass over the text that raises a flag for each star, by the offset of its first
byte. Characters take up different numbers of bytes, but no two begin at the same offset, so that
offsets tell the same as places. The other one looks at the literal runs between the stars, and all
that matters is how many there are and whether the outer ones are empty.

## Main definitions

* `StarPlacement.StarAt` : a star stands at a place of a text.
* `StarPlacement.Describes` : what a placement says of the places of the stars.
* `StarPlacement.scan` : the placement found in one pass over the offsets of the stars.
* `StarPlacement.ofRuns` : the placement of the stars between literal runs.

## Main results

* `StarPlacement.classify_eq_iff` : a text has the placement that describes it.
* `StarPlacement.classify_eq_scan` : the pass over the offsets finds the same.
* `StarPlacement.classify_eq_ofRuns` : the literal runs tell the same.
-/

namespace FullText

namespace StarPlacement

/-! ### Places -/

/-- A star stands at a place of a text. -/
def StarAt (text : List Char) (i : Nat) : Prop := text[i]? = some '*'

/-- What a placement says of the places of the stars. A lone star is a leading one, and only in a
longer text is the last character another one than the first. -/
def Describes : StarPlacement → List Char → Prop
  | none, text => ∀ i, ¬ StarAt text i
  | leading, text => ∀ i, StarAt text i ↔ i = 0
  | trailing, text => 1 < text.length ∧ ∀ i, StarAt text i ↔ i + 1 = text.length
  | both, text => 1 < text.length ∧ ∀ i, StarAt text i ↔ i = 0 ∨ i + 1 = text.length
  | contained, text => ∃ i, 0 < i ∧ i + 1 < text.length ∧ StarAt text i

variable {text : List Char}

theorem StarAt.lt_length {i : Nat} (h : StarAt text i) : i < text.length :=
  (List.getElem?_eq_some_iff.1 h).1

theorem starAt_length_append (pre post : List Char) : StarAt (pre ++ '*' :: post) pre.length := by
  rw [StarAt, List.getElem?_append_right le_rfl, Nat.sub_self, List.getElem?_cons_zero]

/-! ### Flags -/

/-- Three flags from which a placement is read off. -/
structure Flags where
  /-- The first character is a star. -/
  first : Bool
  /-- The last character is a star and not the first one. -/
  last : Bool
  /-- A character between them is a star. -/
  inside : Bool

namespace Flags

/-- The placement that the flags stand for. -/
def placement (flags : Flags) : StarPlacement := ofFlags flags.first flags.last flags.inside

/-- Flags that tell where the stars of a text are. -/
structure Tell (flags : Flags) (text : List Char) : Prop where
  /-- The first one is up for a star at the start. -/
  first : flags.first = true ↔ StarAt text 0
  /-- The second one is up for a star at the end that is not the first character. -/
  last : flags.last = true ↔ 1 < text.length ∧ StarAt text (text.length - 1)
  /-- The third one is up for a star elsewhere. -/
  inside : flags.inside = true ↔ ∃ i, 0 < i ∧ i + 1 < text.length ∧ StarAt text i

theorem placement_eq_iff {flags : Flags} {k : StarPlacement} :
    flags.placement = k ↔ match k with
      | none => ¬ flags.first = true ∧ ¬ flags.last = true ∧ ¬ flags.inside = true
      | leading => flags.first = true ∧ ¬ flags.last = true ∧ ¬ flags.inside = true
      | trailing => ¬ flags.first = true ∧ flags.last = true ∧ ¬ flags.inside = true
      | both => flags.first = true ∧ flags.last = true ∧ ¬ flags.inside = true
      | contained => flags.inside = true := by
  obtain ⟨first, last, inside⟩ := flags
  cases k <;> cases first <;> cases last <;> cases inside <;> decide

/-- Flags that tell where the stars of a text are stand for the placement that describes it. -/
theorem Tell.placement_eq_iff_describes {flags : Flags} (h : flags.Tell text) {k : StarPlacement} :
    flags.placement = k ↔ k.Describes text := by
  have hlength : ∀ i, StarAt text i → i < text.length := fun _ => StarAt.lt_length
  -- every star is at the start, at the end or between them, and each flag speaks for one of these
  rw [placement_eq_iff]
  cases k <;> simp only [Describes, h.first, h.last, h.inside]
  case none | leading | trailing | both => grind

end Flags

/-! ### The ends of a text -/

theorem starAt_cons_zero (c : Char) (rest : List Char) :
    StarAt (c :: rest) 0 ↔ isStar c = true := by
  rw [StarAt, List.getElem?_cons_zero, Option.some_inj, isStar_iff]

theorem starAt_cons_succ (c : Char) (rest : List Char) (i : Nat) :
    StarAt (c :: rest) (i + 1) ↔ StarAt rest i := by
  rw [StarAt, List.getElem?_cons_succ, StarAt]

theorem any_getLast?_iff (c : Char) (rest : List Char) :
    rest.getLast?.any isStar = true ↔
      1 < (c :: rest).length ∧ StarAt (c :: rest) ((c :: rest).length - 1) := by
  rcases rest.eq_nil_or_concat with rfl | ⟨init, last, rfl⟩
  · simp
  · simp [StarAt, isStar_iff]

theorem any_dropLast_iff (c : Char) (rest : List Char) :
    rest.dropLast.any isStar = true ↔
      ∃ i, 0 < i ∧ i + 1 < (c :: rest).length ∧ StarAt (c :: rest) i := by
  have hplace (i : Nat) : rest.dropLast[i]? = some '*' ↔ i + 1 < rest.length ∧ StarAt rest i := by
    rw [StarAt, List.getElem?_dropLast, Option.ite_none_right_eq_some, Nat.lt_sub_iff_add_lt]
  rw [any_isStar_iff, List.mem_iff_getElem?]
  simp only [hplace, List.length_cons, Nat.add_lt_add_iff_right]
  constructor
  · rintro ⟨i, hi, hstar⟩
    exact ⟨i + 1, i.succ_pos, hi, (starAt_cons_succ c rest i).2 hstar⟩
  · rintro ⟨i, hpos, hi, hstar⟩
    obtain ⟨i, rfl⟩ := Nat.exists_eq_succ_of_ne_zero hpos.ne'
    exact ⟨i, hi, (starAt_cons_succ c rest i).1 hstar⟩

/-- The classification goes by flags that tell where the stars are. -/
theorem exists_flags (text : List Char) :
    ∃ flags : Flags, flags.Tell text ∧ classify text = flags.placement := by
  cases text with
  | nil => exact ⟨⟨false, false, false⟩, ⟨by simp [StarAt], by simp, by simp⟩, rfl⟩
  | cons c rest =>
    exact ⟨⟨isStar c, rest.getLast?.any isStar, rest.dropLast.any isStar⟩,
      ⟨(starAt_cons_zero c rest).symm, any_getLast?_iff c rest, any_dropLast_iff c rest⟩, rfl⟩

/-- **A text has the placement that describes it.** -/
theorem classify_eq_iff {k : StarPlacement} : classify text = k ↔ k.Describes text := by
  obtain ⟨flags, htell, hclassify⟩ := exists_flags text
  rw [hclassify, htell.placement_eq_iff_describes]

/-! ### One pass over the offsets -/

open Tokenizer (byteLength byteLength_append byteLength_cons byteLength_eq_zero_iff)

/-- The characters of a text with the offsets of their first bytes, given where the text begins. -/
def offsets (start : Nat) : List Char → List (Nat × Char)
  | [] => []
  | c :: rest => (start, c) :: offsets (start + c.utf8Size) rest

/-- The offset of the last character. -/
def finalOffset? (text : List Char) : Option Nat := (offsets 0 text).getLast?.map (·.1)

/-- The offsets of the stars. -/
def starOffsets (text : List Char) : List Nat :=
  ((offsets 0 text).filter fun place => isStar place.2).map (·.1)

/-- The flags with the one up that a star asks for, given the offset of the last character. -/
def Flags.note (final : Option Nat) (flags : Flags) (offset : Nat) : Flags :=
  if offset = 0 then { flags with first := true }
  else if some offset = final then { flags with last := true }
  else { flags with inside := true }

/-- The flags after all stars. -/
def Flags.ofText (text : List Char) : Flags :=
  (starOffsets text).foldl (note (finalOffset? text)) ⟨false, false, false⟩

/-- The placement of the stars that is found in one pass over their offsets. -/
def scan (text : List Char) : StarPlacement := (Flags.ofText text).placement

theorem mem_offsets_iff {start n : Nat} {c : Char} :
    (n, c) ∈ offsets start text ↔
      ∃ i, text[i]? = some c ∧ n = start + byteLength (text.take i) := by
  induction text generalizing start with
  | nil => simp [offsets]
  | cons d rest ih =>
    rw [offsets, List.mem_cons, ih]
    constructor
    · rintro (heq | ⟨i, hi, rfl⟩)
      · obtain ⟨rfl, rfl⟩ := Prod.mk.inj heq
        exact ⟨0, rfl, rfl⟩
      · exact ⟨i + 1, hi, Nat.add_assoc _ _ _⟩
    · rintro ⟨i, hi, rfl⟩
      cases i with
      | zero =>
        obtain rfl := Option.some.inj hi
        exact .inl rfl
      | succ i => exact .inr ⟨i, hi, (Nat.add_assoc _ _ _).symm⟩

theorem exists_mem_starOffsets_iff {P : Nat → Prop} :
    (∃ n ∈ starOffsets text, P n) ↔ ∃ i, StarAt text i ∧ P (byteLength (text.take i)) := by
  simp only [starOffsets, List.mem_map, List.mem_filter, Prod.exists, mem_offsets_iff, isStar_iff,
    Nat.zero_add, StarAt]
  constructor
  · rintro ⟨_, ⟨_, _, ⟨⟨i, hi, rfl⟩, rfl⟩, rfl⟩, h⟩
    exact ⟨i, hi, h⟩
  · rintro ⟨i, hi, h⟩
    exact ⟨_, ⟨_, _, ⟨⟨i, hi, rfl⟩, rfl⟩, rfl⟩, h⟩

theorem finalOffset?_concat (init : List Char) (last : Char) :
    finalOffset? (init ++ [last]) = some (byteLength init) := by
  have hoffsets (start : Nat) :
      (offsets start (init ++ [last])).getLast? = some (start + byteLength init, last) := by
    induction init generalizing start with
    | nil => rfl
    | cons c init ih =>
      rw [List.cons_append, offsets, List.getLast?_cons, ih, byteLength_cons, ← Nat.add_assoc]
      rfl
  rw [finalOffset?, hoffsets, Nat.zero_add]
  rfl

/-- Later characters have greater offsets. -/
theorem byteLength_take_lt {i j : Nat} (hij : i < j) (hj : j ≤ text.length) :
    byteLength (text.take i) < byteLength (text.take j) := by
  obtain ⟨d, rfl⟩ := Nat.exists_eq_add_of_lt hij
  have hne : (text.drop i).take (d + 1) ≠ [] := by
    rw [ne_eq, List.take_eq_nil_iff, List.drop_eq_nil_iff]
    omega
  have hpos := Nat.pos_of_ne_zero (mt byteLength_eq_zero_iff.1 hne)
  rw [Nat.add_assoc, List.take_add, byteLength_append]
  omega

theorem byteLength_take_inj {i j : Nat} (hi : i ≤ text.length) (hj : j ≤ text.length) :
    byteLength (text.take i) = byteLength (text.take j) ↔ i = j := by
  refine ⟨fun h => ?_, fun h => h ▸ rfl⟩
  rcases Nat.lt_trichotomy i j with hlt | heq | hgt
  · exact absurd h (byteLength_take_lt hlt hj).ne
  · exact heq
  · exact absurd h (byteLength_take_lt hgt hi).ne'

theorem byteLength_take_eq_zero_iff {i : Nat} (hi : i < text.length) :
    byteLength (text.take i) = 0 ↔ i = 0 :=
  byteLength_take_inj hi.le (Nat.zero_le _)

theorem byteLength_take_eq_final_iff {i : Nat} (hi : i < text.length) :
    some (byteLength (text.take i)) = finalOffset? text ↔ i + 1 = text.length := by
  rcases text.eq_nil_or_concat with rfl | ⟨init, last, rfl⟩
  · cases hi
  · rw [List.concat_eq_append] at hi ⊢
    have hinit : byteLength ((init ++ [last]).take init.length) = byteLength init := by
      rw [List.take_left]
    rw [finalOffset?_concat, Option.some_inj, ← hinit, byteLength_take_inj hi.le (by simp)]
    simp

section Notes

variable {final : Option Nat}

theorem first_note (flags : Flags) (n : Nat) :
    (flags.note final n).first = true ↔ flags.first = true ∨ n = 0 := by
  unfold Flags.note
  split_ifs <;> simp [*]

theorem last_note (flags : Flags) (n : Nat) :
    (flags.note final n).last = true ↔ flags.last = true ∨ n ≠ 0 ∧ some n = final := by
  unfold Flags.note
  split_ifs <;> simp [*]

theorem inside_note (flags : Flags) (n : Nat) :
    (flags.note final n).inside = true ↔ flags.inside = true ∨ n ≠ 0 ∧ some n ≠ final := by
  unfold Flags.note
  split_ifs <;> simp [*]

/-- Stars leave a flag up, and a flag that was down is up after them if one of them raises it. -/
theorem foldl_note_iff {flag : Flags → Bool} {raises : Nat → Prop}
    (hnote : ∀ flags n, flag (Flags.note final flags n) = true ↔ flag flags = true ∨ raises n)
    (ns : List Nat) (flags : Flags) :
    flag (ns.foldl (Flags.note final) flags) = true ↔
      flag flags = true ∨ ∃ n ∈ ns, raises n := by
  induction ns generalizing flags with
  | nil => simp
  | cons n ns ih => rw [List.foldl_cons, ih, hnote, List.exists_mem_cons_iff, or_assoc]

end Notes

/-- A flag is up after all stars if one of them raises it. -/
theorem flag_ofText_iff {flag : Flags → Bool} {raises : Nat → Prop}
    (hnote : ∀ flags n,
      flag (Flags.note (finalOffset? text) flags n) = true ↔ flag flags = true ∨ raises n)
    (hdown : flag ⟨false, false, false⟩ = false) :
    flag (Flags.ofText text) = true ↔ ∃ i, StarAt text i ∧ raises (byteLength (text.take i)) := by
  rw [Flags.ofText, foldl_note_iff hnote, hdown, exists_mem_starOffsets_iff,
    or_iff_right Bool.false_ne_true]

/-- The flags after all stars tell where the stars are. -/
theorem tell_ofText (text : List Char) : (Flags.ofText text).Tell text where
  first := by
    rw [flag_ofText_iff first_note rfl]
    constructor
    · rintro ⟨i, hstar, hoffset⟩
      obtain rfl := (byteLength_take_eq_zero_iff hstar.lt_length).1 hoffset
      exact hstar
    · exact fun hstar => ⟨0, hstar, rfl⟩
  last := by
    rw [flag_ofText_iff last_note rfl]
    constructor
    · rintro ⟨i, hstar, hpos, hfinal⟩
      rw [ne_eq, byteLength_take_eq_zero_iff hstar.lt_length] at hpos
      rw [byteLength_take_eq_final_iff hstar.lt_length] at hfinal
      rw [← hfinal, Nat.add_sub_cancel]
      exact ⟨by omega, hstar⟩
    · rintro ⟨hlength, hstar⟩
      refine ⟨_, hstar, ?_, ?_⟩
      · rw [ne_eq, byteLength_take_eq_zero_iff hstar.lt_length]
        omega
      · rw [byteLength_take_eq_final_iff hstar.lt_length]
        omega
  inside := by
    rw [flag_ofText_iff inside_note rfl]
    refine exists_congr fun i => ?_
    rw [and_comm, ← and_assoc]
    refine and_congr_left fun hstar => ?_
    have hlt := hstar.lt_length
    rw [ne_eq, ne_eq, byteLength_take_eq_zero_iff hlt, byteLength_take_eq_final_iff hlt]
    omega

/-- **The pass over the offsets finds the same placement.** -/
theorem classify_eq_scan (text : List Char) : classify text = scan text :=
  classify_eq_iff.2 ((tell_ofText text).placement_eq_iff_describes.1 rfl)

example : starOffsets "é*a*".toList = [2, 4] ∧ scan "é*a*".toList = contained := by decide

/-! ### Literal runs -/

/-- The placement of the stars in a text, given the literal runs between them. -/
def ofRuns : List (List Char) → StarPlacement
  | [] | [_] => none
  | [first, last] =>
    if first.isEmpty then leading else if last.isEmpty then trailing else contained
  | [first, _, last] => if first.isEmpty && last.isEmpty then both else contained
  | _ :: _ :: _ :: _ :: _ => contained

/-- A star with something on both sides is inside. -/
theorem classify_of_inside {pre post : List Char} (hpre : pre ≠ []) (hpost : post ≠ []) :
    classify (pre ++ '*' :: post) = contained := by
  have hfirst := List.length_pos_of_ne_nil hpre
  have hlast := List.length_pos_of_ne_nil hpost
  refine classify_eq_iff.2 ⟨pre.length, hfirst, ?_, starAt_length_append pre post⟩
  rw [List.length_append, List.length_cons]
  omega

theorem classify_cons_concat (a b : Char) (middle : List Char) :
    classify (a :: (middle ++ [b])) = ofFlags (isStar a) (isStar b) (middle.any isStar) := by
  rw [classify, List.getLast?_concat, List.dropLast_concat, Option.any_some]

section Runs

variable {run : List Char}

theorem any_isStar_eq_false (hrun : '*' ∉ run) : run.any isStar = false :=
  Bool.eq_false_iff.2 (mt any_isStar_iff.1 hrun)

theorem classify_star_cons (hrun : '*' ∉ run) : classify ('*' :: run) = leading := by
  rcases run.eq_nil_or_concat with rfl | ⟨init, last, rfl⟩
  · rfl
  · rw [List.concat_eq_append] at hrun ⊢
    have hany := any_isStar_eq_false hrun
    rw [List.any_append, Bool.or_eq_false_iff, List.any_cons, List.any_nil, Bool.or_false] at hany
    rw [classify_cons_concat, hany.1, hany.2]
    rfl

theorem classify_concat_star (hne : run ≠ []) (hrun : '*' ∉ run) :
    classify (run ++ ['*']) = trailing := by
  obtain ⟨a, rest, rfl⟩ := List.exists_cons_of_ne_nil hne
  have hany := any_isStar_eq_false hrun
  rw [List.any_cons, Bool.or_eq_false_iff] at hany
  rw [List.cons_append, classify_cons_concat, hany.1, hany.2]
  rfl

theorem classify_between_stars (hrun : '*' ∉ run) : classify ('*' :: (run ++ ['*'])) = both := by
  rw [classify_cons_concat, any_isStar_eq_false hrun]
  rfl

end Runs

/-- The placement of the stars that join literal runs. -/
theorem classify_intercalate : {runs : List (List Char)} → (∀ run ∈ runs, '*' ∉ run) →
    classify (List.intercalate ['*'] runs) = ofRuns runs
  | [], _ => rfl
  | [run], hruns => by
    rw [List.intercalate_singleton]
    exact classify_eq_none_iff.2 (hruns run List.mem_cons_self)
  | [first, last], hruns => by
    have hfirst := hruns first (by simp)
    have hlast := hruns last (by simp)
    rw [List.intercalate_cons_cons, List.intercalate_singleton, List.append_assoc,
      List.singleton_append, ofRuns]
    rcases first with _ | ⟨a, first⟩
    · exact classify_star_cons hlast
    · rcases last with _ | ⟨b, last⟩
      · exact classify_concat_star (List.cons_ne_nil a first) hfirst
      · exact classify_of_inside (List.cons_ne_nil a first) (List.cons_ne_nil b last)
  | [first, middle, last], hruns => by
    have hmiddle := hruns middle (by simp)
    rw [List.intercalate_cons_cons, List.intercalate_cons_cons, List.intercalate_singleton, ofRuns]
    rcases first with _ | ⟨a, first⟩
    · rcases last with _ | ⟨b, last⟩
      · simpa using classify_between_stars hmiddle
      · simpa using classify_of_inside (List.cons_ne_nil '*' middle) (List.cons_ne_nil b last)
    · simpa using classify_of_inside (List.cons_ne_nil a first)
        (List.append_ne_nil_of_right_ne_nil middle (List.cons_ne_nil '*' last))
  | first :: second :: third :: fourth :: rest, _ => by
    -- the second of at least three stars has another one on each side
    have hinside := classify_of_inside
      (List.append_ne_nil_of_right_ne_nil first (List.cons_ne_nil '*' second))
      (List.append_ne_nil_of_right_ne_nil third
        (List.cons_ne_nil '*' (List.intercalate ['*'] (fourth :: rest))))
    rw [List.intercalate_cons_cons, List.intercalate_cons_cons, List.intercalate_cons_cons, ofRuns]
    simpa using hinside

/-- **The literal runs between the stars tell the placement.** -/
theorem classify_eq_ofRuns (text : List Char) :
    classify text = ofRuns (Text.splitWhere isStar text) := by
  have hruns : ∀ run ∈ Text.splitWhere isStar text, '*' ∉ run := fun run hrun hstar =>
    absurd (Text.forall_not_of_mem_splitWhere hrun '*' hstar) (by decide)
  rw [← classify_intercalate hruns]
  exact congrArg classify (Text.intercalate_splitWhere '*' text).symm

end StarPlacement

end FullText
