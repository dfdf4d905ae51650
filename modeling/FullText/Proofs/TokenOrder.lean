import FullText.Pipeline

/-!
# The order of tokens

The tokenizer of a pattern numbers the tokens of a text from zero, whatever the language of the
pattern: only how it cuts texts into segments matters. Filters that are not given by a function
leave the numbers alone, so that the tokens that a pipeline makes of a text are numbered in
ascending order, with gaps where tokens were dropped.

## Main definitions

* `Tokenizer.ofSegments` : the tokenizer of a pattern in any language.
* `Filter.IsBuiltIn` : a filter that is not given by a function.

## Main results

* `Tokenizer.pairwise_position_tokens` : the numbers of the tokens of a text ascend.
* `Filter.position_of_apply` : a built-in filter keeps the number of a token.
* `Pipeline.pairwise_position_analyze` : the numbers ascend when the filters are through.
-/

namespace FullText

namespace Tokenizer

/-- The tokenizer of a pattern, given its source and how it cuts texts into segments. -/
def ofSegments (source : String) (segments : List Char → List TokenPattern.Segment)
    (e : Extraction) : Tokenizer where
  name := "regex"
  signature := "regex(" ++ e.name ++ ":" ++ source ++ ")"
  tokens text := place e 0 0 (segments text.toList)

/-- The patterns that this library reads make tokenizers of this kind. -/
theorem ofPattern_eq (p : TokenPattern) (e : Extraction) :
    ofPattern p e = ofSegments p.source p.segments e := rfl

private theorem le_position_of_mem_place {e : Extraction} {position start : Nat}
    {segments : List TokenPattern.Segment} {t : Token}
    (ht : t ∈ place e position start segments) : position ≤ t.position := by
  induction segments generalizing position start with
  | nil => cases ht
  | cons s rest ih =>
    rw [place] at ht
    split at ht
    · rcases List.mem_cons.1 ht with rfl | ht
      · exact Nat.le_refl _
      · exact Nat.le_of_succ_le (ih ht)
    · exact ih ht

theorem pairwise_position_place (e : Extraction) (position start : Nat)
    (segments : List TokenPattern.Segment) :
    (place e position start segments).Pairwise fun t u => t.position < u.position := by
  induction segments generalizing position start with
  | nil => exact .nil
  | cons s rest ih =>
    rw [place]
    split
    · exact List.pairwise_cons.2 ⟨fun u hu => le_position_of_mem_place hu, ih _ _⟩
    · exact ih _ _

/-- The tokenizer of a pattern numbers the tokens in ascending order. -/
theorem pairwise_position_tokens (source : String)
    (segments : List Char → List TokenPattern.Segment) (e : Extraction) (text : String) :
    ((ofSegments source segments e).tokens text).Pairwise fun t u => t.position < u.position :=
  pairwise_position_place e 0 0 _

end Tokenizer

namespace Filter

/-- Whether a filter is not given by a function. -/
def IsBuiltIn : Filter → Prop
  | custom _ _ => False
  | _ => True

/-- A built-in filter keeps the number of a token. -/
theorem position_of_apply {f : Filter} (hf : f.IsBuiltIn) {t u : Token}
    (h : f.apply t = some u) : u.position = t.position := by
  cases f with
  | trimmer =>
    rw [apply] at h
    split at h
    · cases h
    · rw [← Option.some.inj h, Token.position_withText]
  | lowercase => rw [← Option.some.inj h, Token.position_withText]
  | stopWords words =>
    rw [apply] at h
    split at h
    · cases h
    · rw [← Option.some.inj h]
  | stemmer s => rw [← Option.some.inj h, Token.position_withText]
  | custom name change => exact hf.elim

end Filter

namespace Pipeline

/-- Built-in filters keep the number of a token. -/
theorem position_of_runFilters {filters : List Filter} (hfilters : ∀ f ∈ filters, f.IsBuiltIn)
    {t u : Token} (h : runFilters filters t = some u) : u.position = t.position := by
  induction filters generalizing t with
  | nil => rw [← Option.some.inj h]
  | cons f rest ih =>
    obtain ⟨t₁, hf, hrest⟩ := Option.bind_eq_some_iff.1 h
    rw [ih (fun g hg => hfilters g (List.mem_cons_of_mem _ hg)) hrest,
      Filter.position_of_apply (hfilters f List.mem_cons_self) hf]

/-- The tokens that built-in filters leave of the tokens of a pattern are numbered in ascending
order. -/
theorem pairwise_position_analyze {p : Pipeline}
    (htokenizer : ∃ source segments e, p.tokenizer = .ofSegments source segments e)
    (hfilters : ∀ f ∈ p.filters, f.IsBuiltIn) (text : String) :
    (p.analyze text).Pairwise fun t u => t.position < u.position := by
  obtain ⟨source, segments, e, htokenizer⟩ := htokenizer
  have htokens := Tokenizer.pairwise_position_tokens source segments e text
  rw [← htokenizer] at htokens
  refine List.pairwise_filterMap.2 (htokens.imp fun {t u} htu t' ht' u' hu' => ?_)
  rw [position_of_runFilters hfilters ht', position_of_runFilters hfilters hu']
  exact htu

end Pipeline

end FullText
