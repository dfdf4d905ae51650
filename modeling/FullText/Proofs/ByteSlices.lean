import FullText.Tokenizer

/-!
# Slices of bytes

A range of bytes of a text is a slice if it begins and ends between characters. Ranges that lie side
by side and are slices give back the text that they cover, character by character.

## Main definitions

* `ByteRange`, `slice?` : ranges of bytes, and the characters in a range.
* `Tiles` : ranges that lie side by side.

## Main results

* `slice?_eq_some_iff` : **what a slice is.**
* `Tiles.exists_flatten_eq` : **the slices of adjacent ranges make up the text that they cover.**
-/

namespace FullText

open Tokenizer (byteLength byteLength_nil byteLength_cons byteLength_append byteLength_eq_zero_iff)

/-! ### Slices -/

/-- A range of bytes of a text. -/
structure ByteRange where
  /-- The offset of the first byte. -/
  start : Nat
  /-- The offset after the last byte. -/
  stop : Nat
  deriving DecidableEq

/-- Whether a range comes before another one or is the same. The empty range at an offset comes
before the others there. -/
def ByteRange.notAfter (r s : ByteRange) : Bool :=
  decide (r.start < s.start) || (decide (r.start = s.start) && decide (r.stop ≤ s.stop))

/-- The range of bytes that a token was taken from. -/
def Token.range (t : Token) : ByteRange := ⟨t.start, t.stop⟩

/-- Splits a text at an offset, unless the offset lies inside a character or behind the text. -/
def splitAtByte? : Nat → List Char → Option (List Char × List Char)
  | 0, text => some ([], text)
  | _ + 1, [] => none
  | n + 1, c :: text =>
    if c.utf8Size ≤ n + 1 then
      (splitAtByte? (n + 1 - c.utf8Size) text).map fun (before, after) => (c :: before, after)
    else none

/-- The characters in a range of bytes. -/
def slice? (text : List Char) (r : ByteRange) : Option (List Char) :=
  if r.start ≤ r.stop then do
    let (_, rest) ← splitAtByte? r.start text
    let (piece, _) ← splitAtByte? (r.stop - r.start) rest
    return piece
  else none

variable {text before after piece : List Char} {r : ByteRange} {rs ms : List ByteRange}

theorem splitAtByte?_append (before after : List Char) :
    splitAtByte? (byteLength before) (before ++ after) = some (before, after) := by
  induction before with
  | nil => exact splitAtByte?.eq_1 after
  | cons c before ih =>
    have hpos := c.utf8Size_pos
    obtain ⟨n, hn⟩ := Nat.exists_eq_add_one.2 (Nat.add_pos_left hpos (byteLength before))
    rw [byteLength_cons, List.cons_append, hn, splitAtByte?, if_pos (by omega), ← hn,
      Nat.add_sub_cancel_left, ih]
    rfl

theorem splitAtByte?_eq_some_iff {n : Nat} :
    splitAtByte? n text = some (before, after) ↔
      text = before ++ after ∧ n = byteLength before := by
  refine ⟨fun h => ?_, fun ⟨htext, hn⟩ => by rw [htext, hn, splitAtByte?_append]⟩
  fun_induction splitAtByte? n text generalizing before with
  | case1 text =>
    cases h
    exact ⟨rfl, rfl⟩
  | case2 => cases h
  | case3 n c text hle ih =>
    obtain ⟨⟨front, rest⟩, hsplit, heq⟩ := Option.map_eq_some_iff.1 h
    cases heq
    obtain ⟨rfl, hlength⟩ := ih hsplit
    exact ⟨rfl, by rw [byteLength_cons]; omega⟩
  | case4 => cases h

/-- **What a slice is.** -/
theorem slice?_eq_some_iff : slice? text r = some piece ↔
    ∃ before after, text = before ++ piece ++ after ∧ r.start = byteLength before ∧
      r.stop = r.start + byteLength piece := by
  rw [slice?]
  split
  · next hle =>
    simp only [Option.bind_eq_bind, Option.bind_eq_some_iff, Prod.exists, splitAtByte?_eq_some_iff,
      Option.pure_def, Option.some.injEq]
    constructor
    · rintro ⟨before, _, ⟨rfl, hstart⟩, _, after, ⟨rfl, hlength⟩, rfl⟩
      exact ⟨before, after, (List.append_assoc ..).symm, hstart, by omega⟩
    · rintro ⟨before, after, rfl, hstart, hstop⟩
      exact ⟨before, piece ++ after, ⟨List.append_assoc .., hstart⟩, piece, after,
        ⟨rfl, by omega⟩, rfl⟩
  · next hle =>
    simp only [reduceCtorEq, false_iff]
    rintro ⟨before, after, rfl, hstart, hstop⟩
    omega

theorem byteLength_pos (h : text ≠ []) : 0 < byteLength text :=
  Nat.pos_of_ne_zero (mt byteLength_eq_zero_iff.1 h)

/-- A slice that does not begin before some offset comes somewhere behind it. -/
theorem exists_append_of_slice? (h : slice? (before ++ after) r = some piece)
    (hle : byteLength before ≤ r.start) :
    ∃ gap rest, after = gap ++ piece ++ rest ∧ r.start = byteLength before + byteLength gap ∧
      r.stop = byteLength before + byteLength gap + byteLength piece := by
  obtain ⟨front, rest, htext, hstart, hstop⟩ := slice?_eq_some_iff.1 h
  rw [List.append_assoc] at htext
  rcases List.append_eq_append_iff.1 htext with ⟨gap, rfl, rfl⟩ | ⟨gap, rfl, hafter⟩
  · rw [byteLength_append] at hstart
    exact ⟨gap, rest, (List.append_assoc ..).symm, hstart, by omega⟩
  · -- The slice begins at the offset itself.
    rw [byteLength_append] at hle
    obtain rfl := byteLength_eq_zero_iff.1 (show byteLength gap = 0 by omega)
    exact ⟨[], rest, hafter.symm, by simpa using hstart, by simp; omega⟩

/-! ### Adjacent ranges -/

/-- Ranges that lie side by side and cover the bytes between two offsets. -/
inductive Tiles : Nat → Nat → List ByteRange → Prop
  /-- No ranges cover nothing. -/
  | nil (offset : Nat) : Tiles offset offset []
  /-- A range in front. -/
  | cons {start middle stop : Nat} {rs : List ByteRange} (hle : start ≤ middle)
      (h : Tiles middle stop rs) : Tiles start stop (⟨start, middle⟩ :: rs)

/-- **The slices of adjacent ranges make up the text that they cover.** -/
theorem Tiles.exists_flatten_eq (before : List Char)
    (h : Tiles (byteLength before) (byteLength (before ++ after)) rs)
    (hslices : ∀ r ∈ rs, (slice? (before ++ after) r).isSome) :
    ∃ pieces, rs.mapM (slice? (before ++ after)) = some pieces ∧ pieces.flatten = after := by
  generalize hstart : byteLength before = start, hstop : byteLength (before ++ after) = stop at h
  induction h generalizing before after with
  | nil offset =>
    have hnil : byteLength after = 0 := by
      rw [byteLength_append] at hstop
      omega
    exact ⟨[], rfl, (byteLength_eq_zero_iff.1 hnil).symm⟩
  | @cons start middle stop rs hle _ ih =>
    obtain ⟨hfirst, hslices⟩ := List.forall_mem_cons.1 hslices
    obtain ⟨piece, hpiece⟩ := Option.isSome_iff_exists.1 hfirst
    obtain ⟨gap, rest, rfl, hfront, hmiddle⟩ := exists_append_of_slice? hpiece (Nat.le_of_eq hstart)
    simp only at hfront hmiddle
    obtain rfl := byteLength_eq_zero_iff.1 (show byteLength gap = 0 by omega)
    rw [List.nil_append, ← List.append_assoc] at hpiece hslices hstop ⊢
    rw [byteLength_nil, Nat.add_zero, ← byteLength_append] at hmiddle
    obtain ⟨pieces, hpieces, hflatten⟩ := ih _ hslices hmiddle.symm hstop
    refine ⟨piece :: pieces, ?_, by rw [List.flatten_cons, hflatten]⟩
    rw [List.mapM_cons, hpiece, hpieces]
    rfl

theorem merge_cons_left (h : ∀ s ∈ rs, r.notAfter s = true) :
    (r :: ms).merge rs ByteRange.notAfter = r :: ms.merge rs ByteRange.notAfter := by
  cases rs with
  | nil => rw [List.merge_right, List.merge_right]
  | cons s rs => exact List.cons_merge_cons_pos _ _ _ (h s List.mem_cons_self)

theorem merge_cons_right (h : ∀ s ∈ rs, s.notAfter r = false) :
    rs.merge (r :: ms) ByteRange.notAfter = r :: rs.merge ms ByteRange.notAfter := by
  cases rs with
  | nil => rw [List.nil_merge, List.nil_merge]
  | cons s rs =>
    exact List.cons_merge_cons_neg _ _ _ (Bool.eq_false_iff.1 (h s List.mem_cons_self))

end FullText
