import FullText.Proofs.GlobLanguage
import FullText.Proofs.SortedMapKeys
import FullText.Search.Expansion

/-!
# The range of a literal head

The terms that start with a text stand together in a sorted vocabulary, from the first term that is
not less than the text. Looking for the matches of a pattern among them only is therefore the same
as looking at the whole vocabulary, because all matches start with the literal head.

## Main results

* `FieldIndex.termsFrom_eq_filter` : the range holds exactly the terms that start with the text.
* `Glob.startsWith_literalHead` : a match of a pattern starts with its literal head.
* `TermFilter.mem_select_iff` : a filter selects exactly the terms that it accepts.
-/

namespace FullText

/-! ### Beginnings and order -/

/-- A text is not greater than those that start with it. -/
theorem not_lt_of_isPrefix {head text : List Char} (h : head <+: text) : ¬ text < head := by
  obtain ⟨rest, rfl⟩ := h
  induction head with
  | nil => exact List.not_lt_nil _
  | cons c head ih =>
    rw [List.cons_append, List.cons_lt_cons_iff]
    rintro (hlt | ⟨-, hlt⟩)
    · exact Char.lt_irrefl c hlt
    · exact ih hlt

/-- What lies between a text and one that starts with it starts with it too. -/
theorem isPrefix_of_lt {head a b : List Char} (ha : ¬ a < head) (hab : a < b) (hb : head <+: b) :
    head <+: a := by
  induction head generalizing a b with
  | nil => exact List.nil_prefix
  | cons c head ih =>
    obtain ⟨rest, rfl⟩ := hb
    cases a with
    | nil => exact absurd (List.nil_lt_cons c head) ha
    | cons d a =>
      rw [List.cons_lt_cons_iff, not_or] at ha
      rw [List.cons_append, List.cons_lt_cons_iff] at hab
      rcases hab with hlt | ⟨rfl, hlt⟩
      · exact absurd hlt ha.1
      · exact List.prefix_cons_inj d |>.2
          (ih (fun h => ha.2 ⟨rfl, h⟩) hlt (List.prefix_append head rest))

namespace FieldIndex

theorem startsWith_iff {text head : String} :
    startsWith text head = true ↔ head.toList <+: text.toList :=
  List.isPrefixOf_iff_prefix

theorem pairwise_vocabulary (f : FieldIndex) : f.vocabulary.Pairwise (· < ·) := by
  refine (SortedMap.pairwise_keys f.terms).imp fun {a b} hlt => ?_
  exact compareOfLessAndEq_eq_lt.1 hlt

/-- Among texts that are not less than a head, those that start with it come first. -/
private theorem takeWhile_startsWith {head : String} {terms : List String}
    (hsorted : terms.Pairwise (· < ·)) (hterms : ∀ t ∈ terms, ¬ t < head) :
    (terms.takeWhile fun t => startsWith t head) = terms.filter fun t => startsWith t head := by
  induction terms with
  | nil => rfl
  | cons t rest ih =>
    obtain ⟨hlt, hrest⟩ := List.pairwise_cons.1 hsorted
    by_cases ht : startsWith t head = true
    · rw [List.takeWhile_cons, List.filter_cons, if_pos ht, if_pos ht,
        ih hrest fun u hu => hterms u (List.mem_cons_of_mem _ hu)]
    · rw [List.takeWhile_cons, List.filter_cons, if_neg ht, if_neg ht, eq_comm,
        List.filter_eq_nil_iff]
      intro u hu hstarts
      refine ht (startsWith_iff.2 ?_)
      exact isPrefix_of_lt (hterms t List.mem_cons_self) (hlt u hu) (startsWith_iff.1 hstarts)

/-- **The range of a head holds exactly the terms that start with it,** in ascending order. -/
theorem termsFrom_eq_filter (f : FieldIndex) (head : String) :
    f.termsFrom head = f.vocabulary.filter fun t => startsWith t head := by
  have hsorted := f.pairwise_vocabulary
  rw [termsFrom]
  generalize f.vocabulary = terms at hsorted ⊢
  induction terms with
  | nil => rfl
  | cons t rest ih =>
    obtain ⟨hlt, hrest⟩ := List.pairwise_cons.1 hsorted
    by_cases ht : t < head
    · have hstarts : ¬ startsWith t head = true := fun h =>
        not_lt_of_isPrefix (startsWith_iff.1 h) ht
      rw [List.dropWhile_cons_of_pos (by simpa using ht), List.filter_cons, if_neg hstarts,
        ih hrest]
    · rw [List.dropWhile_cons_of_neg (by simpa using ht)]
      refine takeWhile_startsWith hsorted fun u hu => ?_
      rcases List.mem_cons.1 hu with rfl | hu
      · exact ht
      · exact fun hhead => ht (List.lt_trans (hlt u hu) hhead)

end FieldIndex

/-! ### Filters -/

/-- A match of a pattern starts with its literal head. -/
theorem Glob.Matches.isPrefix {p t : List Char} (h : Matches p t) :
    (p.takeWhile fun c => !isStar c) <+: t := by
  induction h with
  | nil => exact List.prefix_refl _
  | @literal a p t ha h ih =>
    rw [List.takeWhile_cons_of_pos (by simpa using ha)]
    exact (List.prefix_cons_inj a).2 ih
  | starEnd => exact List.nil_prefix
  | starStep => exact List.nil_prefix

theorem Glob.startsWith_literalHead {g : Glob} {t : String} (h : g.accepts t.toList = true) :
    FieldIndex.startsWith t g.literalHead = true := by
  rw [FieldIndex.startsWith_iff, literalHead, String.toList_ofList]
  exact (accepts_iff_matches.1 h).isPrefix

/-- **A filter selects exactly the terms of a vocabulary that it accepts.** -/
theorem TermFilter.mem_select_iff {f : FieldIndex} {filter : TermFilter} {t : String} :
    t ∈ filter.select f ↔ t ∈ f.vocabulary ∧ filter.accepts t = true := by
  cases filter with
  | exact term =>
    have hvocabulary : f.terms.contains term = true ↔ term ∈ f.vocabulary :=
      SortedMap.contains_iff
    rw [select, accepts, decide_eq_true_iff]
    split
    · next h =>
      rw [List.mem_singleton]
      exact ⟨fun ht => ⟨ht ▸ hvocabulary.1 h, ht⟩, And.right⟩
    · next h =>
      refine iff_of_false List.not_mem_nil ?_
      rintro ⟨hmem, rfl⟩
      exact h (hvocabulary.2 hmem)
  | pattern glob =>
    rw [select, accepts]
    split
    · rw [List.mem_filter]
    · rw [List.mem_filter, FieldIndex.termsFrom_eq_filter, List.mem_filter, and_assoc]
      exact and_congr_right fun _ => and_iff_right_of_imp Glob.startsWith_literalHead
  | fuzzy term limit => rw [select, accepts, List.mem_filter]

end FullText
