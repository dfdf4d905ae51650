import FullText.Proofs.ByteSlices
import FullText.Proofs.EnglishTokens
import FullText.Proofs.SeparatedRuns
import Mathlib.Data.List.Chain

/-!
# Gaps between matches

A tokenizer of gaps asks an engine for the matches of its pattern and turns what stands between them
into tokens. The loop that does so remembers where the last match ended. It is stated here for the
matches that any engine may report: ranges of bytes that do not overlap, in ascending order, some of
them perhaps empty. The tokens and the matches then make up the text, and for the patterns of this
library the loop yields their tokens.

The proof takes the text apart into segments. What an engine reports are the matches of some
segments without two gaps in a row, and for such segments the loop and the tokens agree.

## Main definitions

* `Tokenizer.splitGaps` : the loop.
* `Tokenizer.Reported` : what is asked of the matches of an engine.
* `Tokenizer.Partition` : tokens and matches that make up a text.

## Main results

* `Tokenizer.Reported.exists_segments` : matches that are reported belong to segments.
* `Tokenizer.splitGaps_ranges` : the loop yields the gaps of segments.
* `Tokenizer.gaps_partition` : **tokens of gaps and matches make up the text.**
-/

namespace FullText

open TokenPattern (Segment)

namespace Tokenizer

variable {text before after gap : List Char} {r : ByteRange} {ms : List ByteRange}

/-! ### The loop -/

/-- Puts what stands between two offsets behind the tokens, if there is anything. This fails if one
of the offsets lies inside a character. -/
def pushGap (text : List Char) (tokens : List Token) (start stop : Nat) : Option (List Token) :=
  if start < stop then
    (slice? text ⟨start, stop⟩).map fun gap =>
      tokens ++ [⟨String.ofList gap, tokens.length, start, stop⟩]
  else some tokens

/-- Puts the gaps between matches behind the tokens, given where the last match ended. -/
def splitGaps (text : List Char) (tokens : List Token) (last : Nat) :
    List ByteRange → Option (List Token)
  | [] => pushGap text tokens last (byteLength text)
  | m :: ms => do splitGaps text (← pushGap text tokens last m.start) m.stop ms

/-- What is asked of the matches of an engine: each is a slice of the text, perhaps an empty one,
and they come in ascending order without overlap. -/
structure Reported (text : List Char) (ms : List ByteRange) : Prop where
  /-- A match begins and ends between characters. -/
  slices : ∀ m ∈ ms, (slice? text m).isSome
  /-- A match ends before the next one begins, or where it begins. -/
  ascending : ms.Pairwise fun m n => m.stop ≤ n.start

/-- The ranges of tokens and matches, in the order of their offsets. -/
def inOrder (ts : List Token) (ms : List ByteRange) : List ByteRange :=
  (ts.map Token.range).merge ms ByteRange.notAfter

/-- Tokens that, together with matches, make up a text. -/
structure Partition (text : List Char) (ts : List Token) (ms : List ByteRange) : Prop where
  /-- No token is empty. -/
  nonempty : ∀ t ∈ ts, t.text ≠ ""
  /-- The tokens are numbered from zero. -/
  positions : ts.map Token.position = List.range ts.length
  /-- The text of a token is what stands at its offsets. -/
  slices : ∀ t ∈ ts, slice? text t.range = some t.text.toList
  /-- Tokens do not overlap and come in ascending order. -/
  ascending : ts.Pairwise fun t u => t.stop ≤ u.start
  /-- Tokens and matches lie side by side from the start to the end of the text. -/
  tiles : Tiles 0 (byteLength text) (inOrder ts ms)
  /-- What stands at their offsets is the whole text. -/
  complete : ∃ pieces, (inOrder ts ms).mapM (slice? text) = some pieces ∧ pieces.flatten = text

/-! ### Ranges of segments -/

variable {e : Extraction} {position start : Nat} {ss : List Segment} {tokens ts : List Token}

/-- The ranges of the selected segments, given the offset of the next byte. -/
def ranges (e : Extraction) (start : Nat) : List Segment → List ByteRange
  | [] => []
  | s :: rest =>
    let stop := start + byteLength s.chars
    if e.selects s then ⟨start, stop⟩ :: ranges e stop rest else ranges e stop rest

theorem ranges_match (start : Nat) (chars : List Char) (ss : List Segment) :
    ranges .matched start (⟨true, chars⟩ :: ss) =
      ⟨start, start + byteLength chars⟩ :: ranges .matched (start + byteLength chars) ss := rfl

theorem ranges_gap (start : Nat) {chars : List Char} (hne : chars ≠ []) (ss : List Segment) :
    ranges .gaps start (⟨false, chars⟩ :: ss) =
      ⟨start, start + byteLength chars⟩ :: ranges .gaps (start + byteLength chars) ss :=
  if_pos (by simp [Extraction.selects, hne])

theorem map_range_place (e : Extraction) (position start : Nat) (ss : List Segment) :
    (place e position start ss).map Token.range = ranges e start ss := by
  induction ss generalizing position start with
  | nil => rfl
  | cons s ss ih =>
    rw [place, ranges]
    split
    · rw [List.map_cons, ih]
      rfl
    · exact ih _ _

theorem le_start_of_mem_ranges (hr : r ∈ ranges e start ss) : start ≤ r.start := by
  induction ss generalizing start with
  | nil => cases hr
  | cons s ss ih =>
    rw [ranges] at hr
    split at hr
    · rcases List.mem_cons.1 hr with rfl | hr
      · exact le_rfl
      · exact (Nat.le_add_right ..).trans (ih hr)
    · exact (Nat.le_add_right ..).trans (ih hr)

theorem pairwise_ranges (e : Extraction) (start : Nat) (ss : List Segment) :
    (ranges e start ss).Pairwise fun r s => r.stop ≤ s.start := by
  induction ss generalizing start with
  | nil => exact .nil
  | cons s ss ih =>
    rw [ranges]
    split
    · exact .cons (fun r hr => le_start_of_mem_ranges hr) (ih _)
    · exact ih _

theorem start_lt_stop_of_mem_ranges (hr : r ∈ ranges .gaps start ss) : r.start < r.stop := by
  induction ss generalizing start with
  | nil => cases hr
  | cons s ss ih =>
    rw [ranges] at hr
    split at hr
    · next hselects =>
      rcases List.mem_cons.1 hr with rfl | hr
      · refine Nat.lt_add_of_pos_right (byteLength_pos ?_)
        rintro hnil
        simp [Extraction.selects, hnil] at hselects
      · exact ih hr
    · exact ih hr

/-- The gaps and matches of segments lie side by side. -/
theorem tiles_merge_ranges (start : Nat) (ss : List Segment) :
    Tiles start (start + byteLength (ss.map (·.chars)).flatten)
      ((ranges .gaps start ss).merge (ranges .matched start ss) ByteRange.notAfter) := by
  induction ss generalizing start with
  | nil =>
    rw [ranges, ranges, List.nil_merge]
    exact .nil start
  | cons s ss ih =>
    have htail := ih (start + byteLength s.chars)
    rw [Nat.add_assoc, ← byteLength_append] at htail
    obtain ⟨isMatch, chars⟩ := s
    cases isMatch with
    | true =>
      have hbehind : ∀ s ∈ ranges .gaps (start + byteLength chars) ss,
          s.notAfter ⟨start, start + byteLength chars⟩ = false := by
        intro s hs
        have := le_start_of_mem_ranges hs
        have := start_lt_stop_of_mem_ranges hs
        simp [ByteRange.notAfter]
        omega
      have hgaps : ranges .gaps start (⟨true, chars⟩ :: ss) =
          ranges .gaps (start + byteLength chars) ss := rfl
      rw [ranges_match, hgaps, merge_cons_right hbehind]
      exact .cons (Nat.le_add_right ..) htail
    | false =>
      have hmatched : ranges .matched start (⟨false, chars⟩ :: ss) =
          ranges .matched (start + byteLength chars) ss := rfl
      by_cases hnil : chars = []
      · subst hnil
        exact htail
      · have hbehind : ∀ s ∈ ranges .matched (start + byteLength chars) ss,
            ByteRange.notAfter ⟨start, start + byteLength chars⟩ s = true := by
          intro s hs
          have := le_start_of_mem_ranges hs
          have := byteLength_pos hnil
          simp [ByteRange.notAfter]
          omega
        rw [hmatched, ranges_gap start hnil, merge_cons_left hbehind]
        exact .cons (Nat.le_add_right ..) htail

/-! ### Tokens of segments -/

theorem map_position_place (e : Extraction) (position start : Nat) (ss : List Segment) :
    (place e position start ss).map Token.position =
      List.range' position (place e position start ss).length := by
  induction ss generalizing position start with
  | nil => rfl
  | cons s ss ih =>
    rw [place]
    split
    · rw [List.map_cons, List.length_cons, List.range'_succ, ih]
    · exact ih _ _

theorem text_ne_empty_of_mem_place {t : Token} (ht : t ∈ place .gaps position start ss) :
    t.text ≠ "" := by
  obtain ⟨s, -, hselects, htext⟩ := exists_segment_of_mem_place ht
  rintro hempty
  have hchars : s.chars = [] := by
    rw [← String.toList_ofList (l := s.chars), ← htext, hempty]
    rfl
  simp [Extraction.selects, hchars] at hselects

theorem slice?_of_mem_place (before : List Char) {t : Token}
    (ht : t ∈ place e position (byteLength before) ss) :
    slice? (before ++ (ss.map (·.chars)).flatten) t.range = some t.text.toList := by
  induction ss generalizing position before with
  | nil => cases ht
  | cons s ss ih =>
    rw [List.map_cons, List.flatten_cons, ← List.append_assoc]
    rw [place, ← byteLength_append] at ht
    split at ht
    · rcases List.mem_cons.1 ht with rfl | ht
      · rw [String.toList_ofList]
        exact slice?_eq_some_iff.2 ⟨before, _, rfl, rfl, byteLength_append ..⟩
      · exact ih _ ht
    · exact ih _ ht

/-- What segments select are slices of the text. -/
theorem isSome_slice?_of_mem_ranges (hr : r ∈ ranges e 0 ss) :
    (slice? (ss.map (·.chars)).flatten r).isSome := by
  rw [← map_range_place e 0] at hr
  obtain ⟨t, ht, rfl⟩ := List.mem_map.1 hr
  exact Option.isSome_of_eq_some (slice?_of_mem_place [] ht)

/-- The matches of segments are such as an engine may report. -/
theorem reported_ranges (ss : List Segment) :
    Reported (ss.map (·.chars)).flatten (ranges .matched 0 ss) where
  slices _ hm := isSome_slice?_of_mem_ranges hm
  ascending := pairwise_ranges .matched 0 ss

/-- **The gaps and matches of segments make up the text.** -/
theorem partition_place (ss : List Segment) :
    Partition (ss.map (·.chars)).flatten (place .gaps 0 0 ss) (ranges .matched 0 ss) where
  nonempty _ ht := text_ne_empty_of_mem_place ht
  positions := by rw [map_position_place, List.range_eq_range']
  slices _ ht := slice?_of_mem_place [] ht
  ascending := by
    have h := pairwise_ranges .gaps 0 ss
    rw [← map_range_place .gaps 0, List.pairwise_map] at h
    exact h
  tiles := by
    rw [inOrder, map_range_place]
    simpa using tiles_merge_ranges 0 ss
  complete := by
    rw [inOrder, map_range_place]
    refine Tiles.exists_flatten_eq [] ?_ fun r hr => ?_
    · simpa using tiles_merge_ranges 0 ss
    · rcases List.mem_merge.1 hr with hr | hr <;> exact isSome_slice?_of_mem_ranges hr

/-! ### The loop on segments -/

/-- Whether one of two neighbouring segments is a match. -/
def Separated (s t : Segment) : Prop := s.isMatch = true ∨ t.isMatch = true

/-- What an engine reports are the matches of segments that make up the text. -/
theorem Reported.exists_segments (before : List Char) (h : Reported (before ++ after) ms)
    (hle : ∀ m ∈ ms, byteLength before ≤ m.start) :
    ∃ ss, (ss.map (·.chars)).flatten = after ∧ ranges .matched (byteLength before) ss = ms ∧
      ss.IsChain Separated := by
  induction ms generalizing before after with
  | nil => exact ⟨[⟨false, after⟩], by simp, rfl, .singleton _⟩
  | cons m ms ih =>
    obtain ⟨hfirst, hslices⟩ := List.forall_mem_cons.1 h.slices
    obtain ⟨piece, hpiece⟩ := Option.isSome_iff_exists.1 hfirst
    obtain ⟨hbehind, hascending⟩ := List.pairwise_cons.1 h.ascending
    obtain ⟨gap, rest, rfl, hstart, hstop⟩ :=
      exists_append_of_slice? hpiece (hle m List.mem_cons_self)
    have htext : before ++ (gap ++ piece ++ rest) = before ++ gap ++ piece ++ rest := by simp
    have hlength : byteLength (before ++ gap ++ piece) = m.stop := by
      rw [byteLength_append, byteLength_append, hstop]
    rw [htext] at hslices
    obtain ⟨ss, hflatten, hranges, hchain⟩ := ih _ ⟨hslices, hascending⟩ (hlength ▸ hbehind)
    refine ⟨⟨false, gap⟩ :: ⟨true, piece⟩ :: ss, by simp [hflatten], ?_, ?_⟩
    · have hfront : ranges .matched (byteLength before) (⟨false, gap⟩ :: ⟨true, piece⟩ :: ss) =
          ranges .matched (byteLength before + byteLength gap) (⟨true, piece⟩ :: ss) := rfl
      rw [hfront, ranges_match, ← hstop, ← hstart, ← hranges, hlength]
    · exact .cons_cons (.inr rfl) (List.isChain_cons.2 ⟨fun _ _ => .inl rfl, hchain⟩)

/-- A match completes the gap in front of it. -/
theorem place_gap_match (position start : Nat) (gap chars : List Char) (ss : List Segment) :
    place .gaps position start (⟨false, gap⟩ :: ⟨true, chars⟩ :: ss) =
      place .gaps position start [⟨false, gap⟩] ++
        place .gaps (position + (place .gaps position start [⟨false, gap⟩]).length)
          (start + byteLength gap + byteLength chars) (⟨false, []⟩ :: ss) := by
  by_cases hnil : gap = []
  · subst hnil
    rfl
  · rw [place_gap _ hnil, place_gap _ hnil]
    rfl

theorem pushGap_eq (tokens : List Token) (before gap after : List Char) :
    pushGap (before ++ gap ++ after) tokens (byteLength before) (byteLength (before ++ gap)) =
      some (tokens ++ place .gaps tokens.length (byteLength before) [⟨false, gap⟩]) := by
  rw [pushGap]
  by_cases hnil : gap = []
  · subst hnil
    simp [place, Extraction.selects]
  · have := byteLength_pos hnil
    have hslice : slice? (before ++ gap ++ after)
        ⟨byteLength before, byteLength (before ++ gap)⟩ = some gap :=
      slice?_eq_some_iff.2 ⟨before, after, rfl, rfl, byteLength_append ..⟩
    rw [if_pos (by rw [byteLength_append]; omega), hslice, place_gap [] hnil, byteLength_append]
    rfl

/-- **The loop yields the gaps of segments.** A gap whose match has not come yet stands in front. -/
theorem splitGaps_ranges (hchain : ss.IsChain Separated)
    (hgap : gap = [] ∨ ∀ s ∈ ss.head?, s.isMatch = true) (tokens : List Token)
    (before : List Char) :
    splitGaps (before ++ gap ++ (ss.map (·.chars)).flatten) tokens (byteLength before)
        (ranges .matched (byteLength (before ++ gap)) ss) =
      some (tokens ++ place .gaps tokens.length (byteLength before) (⟨false, gap⟩ :: ss)) := by
  induction ss generalizing gap tokens before with
  | nil => simpa [ranges, splitGaps] using pushGap_eq tokens before gap []
  | cons s ss ih =>
    obtain ⟨hhead, hrest⟩ := List.isChain_cons.1 hchain
    obtain ⟨isMatch, chars⟩ := s
    cases isMatch with
    | true =>
      -- The gap in front is complete, and the next one begins behind the match.
      have hpush := pushGap_eq tokens before gap (chars ++ (ss.map (·.chars)).flatten)
      have hnext := ih hrest (.inl rfl)
        (tokens ++ place .gaps tokens.length (byteLength before) [⟨false, gap⟩])
        (before ++ gap ++ chars)
      rw [List.length_append, byteLength_append, byteLength_append, ← byteLength_append before,
        ← byteLength_append (before ++ gap)] at hnext
      rw [List.map_cons, List.flatten_cons, ranges_match, splitGaps, hpush, place_gap_match,
        ← byteLength_append before, ← byteLength_append (before ++ gap),
        ← List.append_assoc tokens, ← hnext, List.append_nil, List.append_assoc _ chars]
      rfl
    | false =>
      -- The segment is the gap, as there is none in front.
      have hnil : gap = [] := hgap.resolve_right (by simp)
      subst hnil
      have hpending : chars = [] ∨ ∀ t ∈ ss.head?, t.isMatch = true :=
        .inr fun t ht => (hhead t ht).resolve_left Bool.false_ne_true
      have hnext := ih hrest hpending tokens before
      rw [byteLength_append] at hnext
      rw [List.append_nil, List.map_cons, List.flatten_cons, ← List.append_assoc]
      exact hnext

/-- Matches that are reported are those of segments, and the loop yields the gaps of these. -/
theorem Reported.exists_splitGaps_eq (h : Reported text ms) :
    ∃ ss, (ss.map (·.chars)).flatten = text ∧ ranges .matched 0 ss = ms ∧
      splitGaps text [] 0 ms = some (place .gaps 0 0 ss) := by
  obtain ⟨ss, rfl, rfl, hchain⟩ := h.exists_segments [] fun m _ => Nat.zero_le m.start
  exact ⟨ss, rfl, rfl, splitGaps_ranges hchain (.inl rfl) [] []⟩

end Tokenizer

/-! ### Patterns -/

namespace TokenPattern

open Tokenizer (Separated)

theorem isChain_extendGap (c : Char) {ss : List Segment} (h : ss.IsChain Separated) :
    (extendGap c ss).IsChain Separated := by
  rw [extendGap.eq_def]
  split
  · exact List.isChain_cons.2 ⟨(List.isChain_cons.1 h).1, (List.isChain_cons.1 h).2⟩
  · next hhead =>
    refine List.isChain_cons.2 ⟨fun s hs => .inr ?_, h⟩
    obtain ⟨rest, rfl⟩ := List.head?_eq_some_iff.1 hs
    obtain ⟨isMatch, chars⟩ := s
    cases isMatch with
    | true => rfl
    | false => exact absurd rfl (hhead chars rest)

theorem isChain_addMatched (q : Quantifier) (c : Char) {ss : List Segment}
    (h : ss.IsChain Separated) : (addMatched q c ss).IsChain Separated := by
  have hfront (chars : List Char) {us : List Segment} (h : us.IsChain Separated) :
      (⟨true, chars⟩ :: us : List Segment).IsChain Separated :=
    List.isChain_cons.2 ⟨fun _ _ => .inl rfl, h⟩
  have hextend : (extendMatch c ss).IsChain Separated := by
    rw [extendMatch.eq_def]
    split
    · exact hfront _ (List.isChain_cons.1 h).2
    · exact hfront _ h
  cases q with
  | one => exact hfront _ h
  | oneOrMore | anyNumber => exact hextend

/-- No two gaps of a pattern are neighbours. -/
theorem isChain_segmentsFrom (p : TokenPattern) (afterMatch : Bool) (text : List Char) :
    (p.segmentsFrom afterMatch text).IsChain Separated := by
  induction text generalizing afterMatch with
  | nil =>
    rw [segmentsFrom, emptyMatch]
    split
    · exact .singleton _
    · exact .nil
  | cons c text ih =>
    rw [segmentsFrom]
    split
    · exact isChain_addMatched p.quantifier c (ih true)
    · have hgap := isChain_extendGap c (ih false)
      rw [emptyMatch]
      split
      · exact List.isChain_cons.2 ⟨fun _ _ => .inl rfl, hgap⟩
      · exact hgap

end TokenPattern

namespace Tokenizer

/-- The ranges of the matches of a pattern. -/
def matchRanges (p : TokenPattern) (text : String) : List ByteRange :=
  ((ofPattern p .matched).tokens text).map Token.range

theorem reported_matchRanges (p : TokenPattern) (text : String) :
    Reported text.toList (matchRanges p text) := by
  have h := reported_ranges (p.segments text.toList)
  rwa [p.flatten_segments, ← map_range_place .matched 0] at h

/-- **The loop on the matches of a pattern yields the tokens of its gaps.** -/
theorem splitGaps_matchRanges (p : TokenPattern) (text : String) :
    splitGaps text.toList [] 0 (matchRanges p text) = some ((ofPattern p .gaps).tokens text) := by
  have h := splitGaps_ranges (p.isChain_segmentsFrom false text.toList) (.inl rfl) [] []
  have hflatten : ((p.segmentsFrom false text.toList).map (·.chars)).flatten = text.toList :=
    p.flatten_segments text.toList
  rw [hflatten] at h
  rw [matchRanges, ofPattern, map_range_place]
  exact h

theorem separator_contains (c : Char) :
    TokenPattern.separator.charClass.contains c = (Text.isBlank c || c == '-') := by
  have h := TokenPattern.separator_contains_eq_false_iff (c := c)
  cases hc : TokenPattern.separator.charClass.contains c with
  | false =>
    obtain ⟨hblank, hhyphen⟩ := h.1 hc
    simp [hblank, hhyphen]
  | true =>
    by_contra hne
    have : Text.isBlank c = false ∧ c ≠ '-' := by simpa using hne
    rw [h.2 this] at hc
    cases hc

/-- **Tokens of gaps and matches make up the text**, whatever matches an engine reports. The matches
of the patterns of this library are such as an engine may report, and with them the loop yields the
tokens of these patterns. Those of the separator are the maximal runs of characters that are neither
white space nor hyphens. -/
theorem gaps_partition (text : String) :
    (∀ ms, Reported text.toList ms → ∃ ts, splitGaps text.toList [] 0 ms = some ts ∧
      Partition text.toList ts ms) ∧
    (∀ p, Reported text.toList (matchRanges p text) ∧
      splitGaps text.toList [] 0 (matchRanges p text) = some ((ofPattern p .gaps).tokens text) ∧
      Partition text.toList ((ofPattern p .gaps).tokens text) (matchRanges p text)) ∧
    ∀ run start stop,
      (∃ t ∈ separator.tokens text, t.text.toList = run ∧ t.start = start ∧ t.stop = stop) ↔
        ∃ before after, text.toList = before ++ run ++ after ∧ start = byteLength before ∧
          stop = start + byteLength run ∧
          MaximalRun (fun c => Text.isBlank c || c == '-') before run after := by
  have hpartition (ms : List ByteRange) (h : Reported text.toList ms) :
      ∃ ts, splitGaps text.toList [] 0 ms = some ts ∧ Partition text.toList ts ms := by
    obtain ⟨ss, hflatten, rfl, hsplit⟩ := h.exists_splitGaps_eq
    exact ⟨_, hsplit, hflatten ▸ partition_place ss⟩
  refine ⟨hpartition, fun p => ?_, fun run start stop => ?_⟩
  · obtain ⟨ts, hsplit, h⟩ := hpartition _ (reported_matchRanges p text)
    rw [splitGaps_matchRanges] at hsplit
    obtain rfl := Option.some.inj hsplit
    exact ⟨reported_matchRanges p text, splitGaps_matchRanges p text, h⟩
  · have hseparates : (fun c => Text.isBlank c || c == '-') =
        TokenPattern.separator.charClass.contains := funext fun c => (separator_contains c).symm
    rw [hseparates]
    exact exists_token_iff (by decide)

/-- A letter of two bytes, two hyphens and a letter: where any number of hyphens separates, the
hyphens and the empty matches at both ends are reported. -/
theorem gaps_partition_hyphens :
    (TokenPattern.parse "-*").map (matchRanges · "é--a") = .ok [⟨0, 0⟩, ⟨2, 4⟩, ⟨5, 5⟩] ∧
      Reported "é--a".toList [⟨0, 0⟩, ⟨2, 4⟩, ⟨5, 5⟩] ∧
      splitGaps "é--a".toList [] 0 [⟨0, 0⟩, ⟨2, 4⟩, ⟨5, 5⟩] =
        some [⟨"é", 0, 0, 2⟩, ⟨"a", 1, 4, 5⟩] ∧
      Partition "é--a".toList [⟨"é", 0, 0, 2⟩, ⟨"a", 1, 4, 5⟩] [⟨0, 0⟩, ⟨2, 4⟩, ⟨5, 5⟩] := by
  have hreported : Reported "é--a".toList [⟨0, 0⟩, ⟨2, 4⟩, ⟨5, 5⟩] := ⟨by decide, by decide⟩
  have hsplit : splitGaps "é--a".toList [] 0 [⟨0, 0⟩, ⟨2, 4⟩, ⟨5, 5⟩] =
      some [⟨"é", 0, 0, 2⟩, ⟨"a", 1, 4, 5⟩] := by decide +kernel
  obtain ⟨ts, hts, hpartition⟩ := (gaps_partition "é--a").1 _ hreported
  rw [hsplit] at hts
  obtain rfl := Option.some.inj hts
  exact ⟨by rfl, hreported, hsplit, hpartition⟩

end Tokenizer

end FullText
