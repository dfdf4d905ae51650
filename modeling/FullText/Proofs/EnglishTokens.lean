import FullText.Pipeline
import FullText.Proofs.LowerCase

/-!
# The tokens of English text

A token of English text holds no white space and no hyphen, because these separate tokens, and no
filter brings them in. The same argument shows that a text without stars has no token with a star.
It is made once for any kind of character that the characters brought in by lower case belong to.

## Main results

* `TokenPattern.segmentOf_of_mem` : a gap holds none of the characters of the pattern.
* `Filter.forall_mem_apply` : an English filter keeps to a kind of characters.
* `Pipeline.of_mem_english` : the characters of the tokens of English text.
-/

namespace FullText

namespace TokenPattern

/-- The characters of a segment are those of the text, and a gap holds none that the pattern asks
for. -/
def SegmentOf (p : TokenPattern) (text : List Char) (s : Segment) : Prop :=
  ∀ c ∈ s.chars, c ∈ text ∧ (s.isMatch = false → p.charClass.contains c = false)

theorem SegmentOf.cons {p : TokenPattern} {text : List Char} {s : Segment}
    (h : p.SegmentOf text s) (c : Char) : p.SegmentOf (c :: text) s :=
  fun d hd => ⟨List.mem_cons_of_mem c (h d hd).1, (h d hd).2⟩

theorem segmentOf_extendGap {p : TokenPattern} {c : Char} {text : List Char}
    (hc : p.charClass.contains c = false) {segments : List Segment}
    (h : ∀ s ∈ segments, p.SegmentOf text s) :
    ∀ s ∈ extendGap c segments, p.SegmentOf (c :: text) s := by
  have hsingle : p.SegmentOf (c :: text) ⟨false, [c]⟩ := by
    intro d hd
    obtain rfl := List.mem_singleton.1 hd
    exact ⟨List.mem_cons_self, fun _ => hc⟩
  intro s hs
  rw [extendGap.eq_def] at hs
  split at hs
  · next cs rest =>
    rcases List.mem_cons.1 hs with rfl | hs
    · intro d hd
      rcases List.mem_cons.1 hd with rfl | hd
      · exact ⟨List.mem_cons_self, fun _ => hc⟩
      · exact (h ⟨false, cs⟩ List.mem_cons_self).cons c d hd
    · exact (h s (List.mem_cons_of_mem _ hs)).cons c
  · rcases List.mem_cons.1 hs with rfl | hs
    · exact hsingle
    · exact (h s hs).cons c

theorem segmentOf_addMatched {p : TokenPattern} (q : Quantifier) (c : Char) {text : List Char}
    {segments : List Segment} (h : ∀ s ∈ segments, p.SegmentOf text s) :
    ∀ s ∈ addMatched q c segments, p.SegmentOf (c :: text) s := by
  have hsingle : p.SegmentOf (c :: text) ⟨true, [c]⟩ := by
    intro d hd
    obtain rfl := List.mem_singleton.1 hd
    exact ⟨List.mem_cons_self, nofun⟩
  have hfront (s : Segment) (hs : s ∈ ⟨true, [c]⟩ :: segments) : p.SegmentOf (c :: text) s := by
    rcases List.mem_cons.1 hs with rfl | hs
    · exact hsingle
    · exact (h s hs).cons c
  have hextend (s : Segment) (hs : s ∈ extendMatch c segments) : p.SegmentOf (c :: text) s := by
    rw [extendMatch.eq_def] at hs
    split at hs
    · next cs rest =>
      rcases List.mem_cons.1 hs with rfl | hs
      · intro d hd
        rcases List.mem_cons.1 hd with rfl | hd
        · exact ⟨List.mem_cons_self, nofun⟩
        · exact (h ⟨true, cs⟩ List.mem_cons_self).cons c d hd
      · exact (h s (List.mem_cons_of_mem _ hs)).cons c
    · exact hfront s hs
  intro s hs
  cases q with
  | one => exact hfront s hs
  | oneOrMore => exact hextend s hs
  | anyNumber => exact hextend s hs

theorem segmentOf_emptyMatch {p : TokenPattern} (q : Quantifier) (afterMatch : Bool)
    (text : List Char) : ∀ s ∈ emptyMatch q afterMatch, p.SegmentOf text s := by
  intro s hs
  rw [emptyMatch] at hs
  split at hs
  · obtain rfl := List.mem_singleton.1 hs
    intro c hc
    cases hc
  · cases hs

/-- The segments of a text hold its characters only, and the gaps none that the pattern asks
for. -/
theorem segmentOf_of_mem (p : TokenPattern) (afterMatch : Bool) (text : List Char) :
    ∀ s ∈ p.segmentsFrom afterMatch text, p.SegmentOf text s := by
  induction text generalizing afterMatch with
  | nil => exact segmentOf_emptyMatch _ _ _
  | cons c text ih =>
    rw [segmentsFrom]
    split
    · exact segmentOf_addMatched p.quantifier c (ih true)
    · next hc =>
      intro s hs
      rcases List.mem_append.1 hs with hs | hs
      · exact segmentOf_emptyMatch _ _ _ s hs
      · exact segmentOf_extendGap (Bool.eq_false_iff.2 hc) (ih false) s hs

/-- What stands between separators is neither white space nor a hyphen. -/
theorem separator_contains_eq_false_iff {c : Char} :
    separator.charClass.contains c = false ↔ Text.isBlank c = false ∧ c ≠ '-' := by
  have hrange : (decide ('-' ≤ c) && decide (c ≤ '-')) = decide (c = '-') := by
    rw [Bool.eq_iff_iff, Bool.and_eq_true, decide_eq_true_iff, decide_eq_true_iff,
      decide_eq_true_iff]
    exact ⟨fun h => Char.le_antisymm h.2 h.1, fun h => h ▸ ⟨Char.le_refl _, Char.le_refl _⟩⟩
  simp [separator, CharClass.contains, CharClass.Item.contains, hrange]

end TokenPattern

namespace Tokenizer

/-- A token of a pattern is the text of a segment that is selected. -/
theorem exists_segment_of_mem_place {e : Extraction} {position start : Nat}
    {segments : List TokenPattern.Segment} {t : Token} (ht : t ∈ place e position start segments) :
    ∃ s ∈ segments, e.selects s = true ∧ t.text = String.ofList s.chars := by
  induction segments generalizing position start with
  | nil => cases ht
  | cons s rest ih =>
    have hrest {position start : Nat} (ht : t ∈ place e position start rest) :
        ∃ s' ∈ s :: rest, e.selects s' = true ∧ t.text = String.ofList s'.chars := by
      obtain ⟨s', hs', hselects, htext⟩ := ih ht
      exact ⟨s', List.mem_cons_of_mem _ hs', hselects, htext⟩
    rw [place] at ht
    split at ht
    · next hselects =>
      rcases List.mem_cons.1 ht with rfl | ht
      · exact ⟨s, List.mem_cons_self, hselects, rfl⟩
      · exact hrest ht
    · exact hrest ht

/-- The texts between separators hold neither white space nor hyphens. -/
theorem of_mem_separator {text : String} {t : Token} (ht : t ∈ separator.tokens text) {c : Char}
    (hc : c ∈ t.text.toList) : c ∈ text.toList ∧ Text.isBlank c = false ∧ c ≠ '-' := by
  obtain ⟨s, hs, hselects, htext⟩ := exists_segment_of_mem_place ht
  rw [htext, String.toList_ofList] at hc
  obtain ⟨hmem, hgap⟩ := TokenPattern.segmentOf_of_mem .separator false _ s hs c hc
  have hmatch : s.isMatch = false := by
    simp only [Extraction.selects, Bool.and_eq_true, Bool.not_eq_true'] at hselects
    exact hselects.1
  obtain ⟨hblank, hhyphen⟩ := TokenPattern.separator_contains_eq_false_iff.1 (hgap hmatch)
  exact ⟨hmem, hblank, hhyphen⟩

end Tokenizer

namespace Filter

theorem mem_of_mem_trim {text : String} {c : Char} (hc : c ∈ (trim text).toList) :
    c ∈ text.toList := by
  rw [trim, String.toList_ofList, Text.trimWhere, List.mem_reverse] at hc
  have hmem := (List.dropWhile_sublist _).subset hc
  rw [List.mem_reverse] at hmem
  exact (List.dropWhile_sublist _).subset hmem

/-- Whether a filter is one of those for English text, with any list of stop words. -/
def IsEnglish : Filter → Prop
  | trimmer => True
  | lowercase => True
  | stopWords _ => True
  | stemmer s => s = .porter
  | custom _ _ => False

variable {p : Char → Prop}

/-- **A filter for English text keeps to a kind of characters** to which all those belong that
lower case may bring in. -/
theorem forall_mem_apply (hsmall : ∀ c, Text.Small c → p c) {f : Filter} (hf : f.IsEnglish)
    {t u : Token} (h : f.apply t = some u) (ht : ∀ c ∈ t.text.toList, p c) :
    ∀ c ∈ u.text.toList, p c := by
  intro c hc
  cases f with
  | trimmer =>
    rw [apply] at h
    split at h
    · cases h
    · rw [← Option.some.inj h, Token.text_withText] at hc
      exact ht c (mem_of_mem_trim hc)
  | lowercase =>
    rw [← Option.some.inj h, Token.text_withText] at hc
    rcases Text.small_or_mem_lowercase hc with hc | ⟨hc, -⟩
    · exact hsmall c hc
    · exact ht c hc
  | stopWords words =>
    rw [apply] at h
    split at h
    · cases h
    · rw [← Option.some.inj h] at hc
      exact ht c hc
  | stemmer s =>
    obtain rfl : s = .porter := hf
    rw [← Option.some.inj h, Token.text_withText] at hc
    rcases Porter.small_or_mem_stem hc with hc | hc
    · exact hsmall c hc
    · exact ht c hc
  | custom name change => exact hf.elim

theorem forall_mem_runFilters (hsmall : ∀ c, Text.Small c → p c) {filters : List Filter}
    (hfilters : ∀ f ∈ filters, f.IsEnglish) {t u : Token}
    (h : Pipeline.runFilters filters t = some u) (ht : ∀ c ∈ t.text.toList, p c) :
    ∀ c ∈ u.text.toList, p c := by
  induction filters generalizing t with
  | nil =>
    obtain rfl := Option.some.inj h
    exact ht
  | cons f rest ih =>
    obtain ⟨t₁, hf, hrest⟩ := Option.bind_eq_some_iff.1 h
    exact ih (fun g hg => hfilters g (List.mem_cons_of_mem _ hg)) hrest
      (forall_mem_apply hsmall (hfilters f List.mem_cons_self) hf ht)

end Filter

namespace Pipeline

theorem isEnglish_of_mem : ∀ f ∈ english.filters, f.IsEnglish := by
  simp [english, Filter.englishStops, Filter.stopList, Filter.porter, Filter.IsEnglish]

/-- **The characters of the tokens of English text** are no white space and no hyphens, and a star
comes from a star of the text. -/
theorem of_mem_english {text : String} {t : Token} (ht : t ∈ english.analyze text) {c : Char}
    (hc : c ∈ t.text.toList) :
    Text.isBlank c = false ∧ c ≠ '-' ∧ (c = '*' → '*' ∈ text.toList) := by
  obtain ⟨raw, hraw, hrun⟩ := mem_analyze_iff.1 ht
  refine Filter.forall_mem_runFilters (p := fun c => Text.isBlank c = false ∧ c ≠ '-' ∧
    (c = '*' → '*' ∈ text.toList)) (fun d hd => ?_) isEnglish_of_mem hrun (fun d hd => ?_) c hc
  · exact ⟨hd.notBlank, hd.notHyphen, fun h => absurd h hd.notStar⟩
  · obtain ⟨hmem, hblank, hhyphen⟩ := Tokenizer.of_mem_separator hraw hd
    exact ⟨hblank, hhyphen, fun h => h ▸ hmem⟩

/-- A token of English text holds no line feed. -/
theorem lineFeed_notMem_english {text : String} {t : Token} (ht : t ∈ english.analyze text) :
    '\n' ∉ t.text.toList := by
  intro h
  have hblank : Text.isBlank '\n' = true := rfl
  rw [(of_mem_english ht h).1] at hblank
  exact Bool.false_ne_true hblank

/-- A token of a text without stars holds no star. -/
theorem star_notMem_english {text : String} (htext : '*' ∉ text.toList) {t : Token}
    (ht : t ∈ english.analyze text) : '*' ∉ t.text.toList :=
  fun h => htext ((of_mem_english ht h).2.2 rfl)

end Pipeline

end FullText
