import FullText.Proofs.EnglishTokens
import FullText.Proofs.PatternFolding
import FullText.Proofs.ShortenedWords

/-!
# Tokens that hold something

No step of the pipeline for English text leaves a token empty. A gap between separators is not
empty, the trimmer drops a token rather than leave nothing of it, lower case puts at least one
character in the place of each, and the stemmer drops an ending only if something is left before it.
A literal run of a pattern does not vanish either. The same holds of every pipeline of these filters
whose tokenizer takes pieces that are not empty out of the text.

## Main definitions

* `Tokenizer.Plain`, `Pipeline.Plain` : tokens hold something, and only what the text holds.

## Main results

* `Filter.apply_ne_nil` : a filter for English text leaves something of a token that it keeps.
* `Tokenizer.plain_ofPattern` : which tokenizers of patterns are plain.
* `Pipeline.Plain.of_mem_analyze` : the tokens of a plain pipeline.
* `Pipeline.exists_mem_foldPattern` : folding leaves something of a pattern besides its stars.
-/

namespace FullText

/-! ### Lower case -/

namespace Text

theorem lowerChar_ne_nil (c : Char) : lowerChar c ≠ [] := by
  rw [lowerChar]
  split
  · exact List.cons_ne_nil _ _
  · split <;> exact List.cons_ne_nil _ _

theorem lowerFrom_ne_nil (before : List Char) {text : List Char} (h : text ≠ []) :
    lowerFrom before text ≠ [] := by
  cases text with
  | nil => exact absurd rfl h
  | cons c rest =>
    rw [lowerFrom]
    refine fun hnil => ?_
    have hhead := (List.append_eq_nil_iff.1 hnil).1
    split at hhead
    · split at hhead <;> exact List.cons_ne_nil _ _ hhead
    · exact lowerChar_ne_nil c hhead

/-- Lower case leaves something of a text. -/
theorem lowercase_ne_nil {s : String} (h : s.toList ≠ []) : (lowercase s).toList ≠ [] := by
  rw [lowercase]
  split
  · rw [String.toList_ofList]
    exact List.map_eq_nil_iff.not.2 h
  · rw [String.toList_ofList]
    exact lowerFrom_ne_nil [] h

end Text

/-! ### Filters -/

theorem Filter.apply_ne_nil {f : Filter} (hf : f.IsEnglish) {t u : Token} (h : f.apply t = some u)
    (ht : t.text.toList ≠ []) : u.text.toList ≠ [] := by
  cases f with
  | trimmer =>
    rw [apply] at h
    split at h
    · cases h
    · next htrim =>
      rw [← Option.some.inj h, Token.text_withText]
      exact fun hnil => htrim (by rw [String.isEmpty_iff, ← String.toList_eq_nil_iff, hnil])
  | lowercase =>
    rw [← Option.some.inj h, Token.text_withText]
    exact Text.lowercase_ne_nil ht
  | stopWords words =>
    rw [apply] at h
    split at h
    · cases h
    · rwa [← Option.some.inj h]
  | stemmer s =>
    obtain rfl : s = .porter := hf
    rw [← Option.some.inj h, Token.text_withText]
    exact Porter.stem_ne_nil ht
  | custom name change => exact hf.elim

theorem Filter.runFilters_ne_nil {filters : List Filter} (hfilters : ∀ f ∈ filters, f.IsEnglish)
    {t u : Token} (h : Pipeline.runFilters filters t = some u) (ht : t.text.toList ≠ []) :
    u.text.toList ≠ [] := by
  induction filters generalizing t with
  | nil => rwa [← Option.some.inj h]
  | cons f rest ih =>
    obtain ⟨t₁, hf, hrest⟩ := Option.bind_eq_some_iff.1 h
    exact ih (fun g hg => hfilters g (List.mem_cons_of_mem _ hg)) hrest
      (apply_ne_nil (hfilters f List.mem_cons_self) hf ht)

/-! ### Tokenizers -/

namespace TokenPattern

theorem ne_nil_of_mem_extendGap {c : Char} {segments : List Segment}
    (h : ∀ s ∈ segments, s.chars ≠ []) : ∀ s ∈ extendGap c segments, s.chars ≠ [] := by
  intro s hs
  rw [extendGap.eq_def] at hs
  split at hs
  · rcases List.mem_cons.1 hs with rfl | hs
    · exact List.cons_ne_nil _ _
    · exact h s (List.mem_cons_of_mem _ hs)
  · rcases List.mem_cons.1 hs with rfl | hs
    · exact List.cons_ne_nil _ _
    · exact h s hs

theorem ne_nil_of_mem_addMatched (q : Quantifier) {c : Char} {segments : List Segment}
    (h : ∀ s ∈ segments, s.chars ≠ []) : ∀ s ∈ addMatched q c segments, s.chars ≠ [] := by
  have hfront (s : Segment) (hs : s ∈ ⟨true, [c]⟩ :: segments) : s.chars ≠ [] := by
    rcases List.mem_cons.1 hs with rfl | hs
    · exact List.cons_ne_nil _ _
    · exact h s hs
  have hextend (s : Segment) (hs : s ∈ extendMatch c segments) : s.chars ≠ [] := by
    rw [extendMatch.eq_def] at hs
    split at hs
    · rcases List.mem_cons.1 hs with rfl | hs
      · exact List.cons_ne_nil _ _
      · exact h s (List.mem_cons_of_mem _ hs)
    · exact hfront s hs
  cases q with
  | one => exact hfront
  | oneOrMore => exact hextend
  | anyNumber => exact hextend

/-- Only a pattern that matches nothing has empty segments. -/
theorem ne_nil_of_mem_segmentsFrom {p : TokenPattern} (hp : p.quantifier ≠ .anyNumber)
    (afterMatch : Bool) (text : List Char) :
    ∀ s ∈ p.segmentsFrom afterMatch text, s.chars ≠ [] := by
  have hempty (afterMatch : Bool) : emptyMatch p.quantifier afterMatch = [] := by
    simp [emptyMatch, hp]
  induction text generalizing afterMatch with
  | nil =>
    rw [segmentsFrom, hempty]
    exact List.forall_mem_nil _
  | cons c text ih =>
    rw [segmentsFrom, hempty, List.nil_append]
    split
    · exact ne_nil_of_mem_addMatched _ (ih true)
    · exact ne_nil_of_mem_extendGap (ih false)

end TokenPattern

/-- A tokenizer whose tokens hold something, and only what the text holds. -/
structure Tokenizer.Plain (z : Tokenizer) : Prop where
  /-- No token is empty. -/
  nonempty : ∀ {text t}, t ∈ z.tokens text → t.text.toList ≠ []
  /-- The characters of a token are those of the text. -/
  subset : ∀ {text t}, t ∈ z.tokens text → ∀ c ∈ t.text.toList, c ∈ text.toList

/-- **The tokenizer of a pattern is plain** if its tokens are gaps, or if the pattern does not match
the empty text. -/
theorem Tokenizer.plain_ofPattern {p : TokenPattern} {e : Extraction}
    (h : e = .gaps ∨ p.quantifier ≠ .anyNumber) : (ofPattern p e).Plain where
  nonempty {text t} ht := by
    obtain ⟨s, hs, hselects, htext⟩ := exists_segment_of_mem_place ht
    rw [htext, String.toList_ofList]
    rcases h with rfl | hp
    · simp only [Extraction.selects, Bool.and_eq_true, Bool.not_eq_true', List.isEmpty_eq_false_iff]
        at hselects
      exact hselects.2
    · exact TokenPattern.ne_nil_of_mem_segmentsFrom hp false _ s hs
  subset {text t} ht c hc := by
    obtain ⟨s, hs, -, htext⟩ := exists_segment_of_mem_place ht
    rw [htext, String.toList_ofList] at hc
    exact (TokenPattern.segmentOf_of_mem p false _ s hs c hc).1

/-! ### Pipelines -/

namespace Pipeline

/-- A pipeline of a plain tokenizer and the filters for English text, with any stop words. -/
structure Plain (p : Pipeline) : Prop where
  /-- The tokenizer is plain. -/
  tokenizer : p.tokenizer.Plain
  /-- The filters are those for English text. -/
  filters : ∀ f ∈ p.filters, f.IsEnglish

theorem plain_english : english.Plain where
  tokenizer := Tokenizer.plain_ofPattern (.inl rfl)
  filters := isEnglish_of_mem

/-- **The tokens of a plain pipeline** hold something, and a star only if the text does. -/
theorem Plain.of_mem_analyze {p : Pipeline} (h : p.Plain) {text : String} {t : Token}
    (ht : t ∈ p.analyze text) :
    t.text.toList ≠ [] ∧ ('*' ∉ text.toList → '*' ∉ t.text.toList) := by
  obtain ⟨raw, hraw, hrun⟩ := mem_analyze_iff.1 ht
  have hne := Filter.runFilters_ne_nil h.filters hrun (h.tokenizer.nonempty hraw)
  refine ⟨hne, fun htext hstar => ?_⟩
  have hraw' : ∀ c ∈ raw.text.toList, c ≠ '*' := by
    rintro c hc rfl
    exact htext (h.tokenizer.subset hraw '*' hc)
  exact Filter.forall_mem_runFilters (fun c hc => hc.notStar) h.filters hrun hraw' '*' hstar rfl

theorem foldLiteral_ne_nil (p : Pipeline) {s : String} (hs : s.toList ≠ []) :
    (p.foldLiteral s).toList ≠ [] := by
  obtain ⟨tokenizer, filters⟩ := p
  rw [foldLiteral]
  induction filters generalizing s with
  | nil => exact hs
  | cons f rest ih =>
    refine ih ?_
    cases f with
    | lowercase => exact Text.lowercase_ne_nil hs
    | _ => exact hs

/-- **Folding leaves something of a pattern besides its stars.** -/
theorem exists_mem_foldPattern (p : Pipeline) {pattern : String}
    (h : ∃ c ∈ pattern.toList, c ≠ '*') : ∃ c ∈ (p.foldPattern pattern).toList, c ≠ '*' := by
  obtain ⟨c, hc, hstar⟩ := h
  have hliteral : isStar c = false := by simpa [isStar] using hstar
  obtain ⟨run, hrun, hmem⟩ := Text.exists_mem_splitWhere hc hliteral
  have hne : (p.foldLiteral (String.ofList run)).toList ≠ [] := by
    refine p.foldLiteral_ne_nil ?_
    rw [String.toList_ofList]
    exact List.ne_nil_of_mem hmem
  obtain ⟨d, hd⟩ := List.exists_mem_of_ne_nil _ hne
  have hfolded : (p.foldLiteral (String.ofList run)).toList ∈
      Text.splitWhere isStar (p.foldPattern pattern).toList := by
    rw [splitWhere_foldPattern]
    exact List.mem_map_of_mem hrun
  refine ⟨d, Text.subset_of_mem_splitWhere hfolded hd, ?_⟩
  simpa [isStar] using Text.forall_not_of_mem_splitWhere hfolded d hd

end Pipeline

end FullText
