import FullText.Proofs.FoundDocuments

/-!
# Required clauses

A document is found if some expansion reaches it and every required expansion reaches it. The hits
come clause by clause, so that the clauses noted for a document are in strictly ascending order and
a search by halves finds exactly those that led to the document.

## Main definitions

* `Tally.Notes` : what a tally notes of the hits that were added to it.

## Main results

* `Tally.Notes.add` : adding a hit of the latest clause keeps the clauses noted in order.
* `InvertedIndex.notes_documentTally` : the tally of a document notes the clauses of its hits.
* `InvertedIndex.mem_rank_iff` : the results, said document by document.
* `InvertedIndex.mem_references_rank_iff` : the documents that are found.
* `InvertedIndex.found_iff_reached` : **required and optional clauses select the right documents.**
-/

namespace FullText

/-! ### Noted clauses -/

/-- A number that is not exceeded by any of some ascending numbers is among them only as the
last. -/
theorem getLast?_eq_of_mem {ns : List Nat} (hns : ns.Pairwise (· < ·)) {n : Nat}
    (hle : ∀ m ∈ ns, m ≤ n) (hn : n ∈ ns) : ns.getLast? = some n := by
  rcases List.eq_nil_or_concat' ns with rfl | ⟨front, last, rfl⟩
  · cases hn
  · rw [List.getLast?_concat]
    rcases List.mem_append.1 hn with hfront | hlast
    · have hlt := (List.pairwise_append.1 hns).2.2 n hfront last (List.mem_singleton_self last)
      exact absurd (hle last (by simp)) (Nat.not_le.2 hlt)
    · rw [List.mem_singleton.1 hlast]

namespace Tally

/-- What a tally notes of the hits that were added to it. -/
structure Notes (t : Tally) (hs : List Hit) : Prop where
  /-- The numbers of the clauses are in ascending order, and none is noted twice. -/
  ascending : t.clauses.Pairwise (· < ·)
  /-- Exactly the clauses of the hits are noted. -/
  mem_iff : ∀ n, n ∈ t.clauses ↔ ∃ h ∈ hs, h.clause = n

theorem notes_empty : empty.Notes [] := ⟨.nil, by simp [empty]⟩

/-- Adding a hit of the latest clause keeps what is noted in order. -/
theorem Notes.add {t : Tally} {hs : List Hit} (h : t.Notes hs) {x : Hit}
    (hlatest : ∀ g ∈ hs, g.clause ≤ x.clause) : (t.add x).Notes (hs ++ [x]) := by
  have hle (n : Nat) (hn : n ∈ t.clauses) : n ≤ x.clause := by
    obtain ⟨g, hg, rfl⟩ := (h.mem_iff n).1 hn
    exact hlatest g hg
  have hmem (n : Nat) : (∃ g ∈ hs ++ [x], g.clause = n) ↔ n ∈ t.clauses ∨ n = x.clause := by
    simp only [List.mem_append, List.mem_singleton, or_and_right, exists_or, h.mem_iff,
      exists_eq_left, eq_comm (a := n)]
  by_cases hnoted : t.clauses.getLast? = some x.clause
  · have hclauses : (t.add x).clauses = t.clauses := if_pos hnoted
    refine ⟨hclauses ▸ h.ascending, fun n => ?_⟩
    rw [hclauses, hmem]
    exact ⟨.inl, fun hn => hn.elim id fun heq => heq ▸ List.mem_of_getLast? hnoted⟩
  · have hclauses : (t.add x).clauses = t.clauses ++ [x.clause] := if_neg hnoted
    refine ⟨?_, fun n => ?_⟩
    · rw [hclauses]
      refine List.pairwise_append.2 ⟨h.ascending, List.pairwise_singleton _ _, fun n hn m hm => ?_⟩
      rw [List.mem_singleton.1 hm]
      refine Nat.lt_of_le_of_ne (hle n hn) fun heq => hnoted ?_
      exact getLast?_eq_of_mem h.ascending hle (heq ▸ hn)
    · rw [hclauses, hmem, List.mem_append, List.mem_singleton]

/-- The tally of hits that come clause by clause notes their clauses. -/
theorem Notes.foldl {t : Tally} {before hs : List Hit} (h : t.Notes before)
    (hsorted : (before ++ hs).Pairwise fun g h => g.clause ≤ h.clause) :
    (hs.foldl Tally.add t).Notes (before ++ hs) := by
  induction hs generalizing t before with
  | nil => simpa using h
  | cons x hs ih =>
    have hlatest (g : Hit) (hg : g ∈ before) : g.clause ≤ x.clause :=
      (List.pairwise_append.1 hsorted).2.2 g hg x List.mem_cons_self
    rw [List.append_cons] at hsorted ⊢
    exact ih (h.add hlatest) hsorted

end Tally

namespace InvertedIndex

variable {index : InvertedIndex} {es : List Expansion} {r : String}

/-- The tally of a document notes the clauses of the hits of the document. -/
theorem notes_documentTally (index : InvertedIndex) (es : List Expansion) (r : String) :
    (index.documentTally es r).Notes (index.documentHits es r) := by
  refine Tally.notes_empty.foldl (((index.pairwise_hits es).imp ?_).sublist List.filter_sublist)
  rintro g h (hlt | ⟨heq, -⟩)
  · exact Nat.le_of_lt hlt
  · exact Nat.le_of_eq heq

theorem mem_requiredClauses_iff {n : Nat} :
    n ∈ requiredClauses es ↔ ∃ e, es[n]? = some e ∧ e.clause.isRequired = true := by
  simp only [requiredClauses, List.mem_map, List.mem_filter, Prod.exists,
    List.mem_zipIdx_iff_getElem?]
  constructor
  · rintro ⟨e, _, ⟨he, hrequired⟩, rfl⟩
    exact ⟨e, he, hrequired⟩
  · rintro ⟨e, he, hrequired⟩
    exact ⟨e, n, ⟨he, hrequired⟩, rfl⟩

/-! ### Found documents -/

/-- The tally of a document has all required clauses if every required expansion reaches the
document. -/
theorem all_required_iff :
    ((requiredClauses es).all fun n => isAmong n (index.documentTally es r).clauses) = true ↔
      ∀ e ∈ es, e.clause.isRequired = true → index.Reaches e r := by
  have hnotes := index.notes_documentTally es r
  simp only [List.all_eq_true, isAmong_iff hnotes.ascending, hnotes.mem_iff,
    exists_hit_of_clause_iff, mem_requiredClauses_iff]
  constructor
  · intro h e he hrequired
    obtain ⟨n, hn⟩ := List.mem_iff_getElem?.1 he
    obtain ⟨e', he', hreaches⟩ := h n ⟨e, hn, hrequired⟩
    rwa [← Option.some.inj (hn.symm.trans he')] at hreaches
  · rintro h n ⟨e, he, hrequired⟩
    exact ⟨e, he, h e (List.mem_of_getElem? he) hrequired⟩

/-- **The results, document by document.** A document is found exactly if some expansion reaches it
and every required expansion does, and its result is what is gathered from its hits. -/
theorem mem_rank_iff {result : SearchResult} :
    result ∈ index.rank es ↔ (∃ e ∈ es, index.Reaches e result.reference) ∧
      (∀ e ∈ es, e.clause.isRequired = true → index.Reaches e result.reference) ∧
      result.score = (index.documentTally es result.reference).score ∧
      result.matchData = (index.documentTally es result.reference).matchData := by
  rw [rank, List.mem_mergeSort, mem_results_iff, documentHits_ne_nil_iff, all_required_iff]

/-- **A document is found exactly if some expansion reaches it and every required expansion
does.** -/
theorem mem_references_rank_iff :
    r ∈ (index.rank es).map (·.reference) ↔ (∃ e ∈ es, index.Reaches e r) ∧
      ∀ e ∈ es, e.clause.isRequired = true → index.Reaches e r := by
  rw [List.mem_map]
  constructor
  · rintro ⟨result, hresult, rfl⟩
    obtain ⟨hreached, hrequired, -⟩ := mem_rank_iff.1 hresult
    exact ⟨hreached, hrequired⟩
  · rintro ⟨hreached, hrequired⟩
    let t := index.documentTally es r
    exact ⟨⟨r, t.score, t.matchData⟩, mem_rank_iff.2 ⟨hreached, hrequired, rfl, rfl⟩, rfl⟩

/-- If no clause is required, exactly those documents are found that a match leads to. -/
theorem mem_references_rank_iff_of_optional
    (hoptional : ∀ e ∈ es, e.clause.isRequired = false) :
    r ∈ (index.rank es).map (·.reference) ↔ ∃ e ∈ es, index.Reaches e r := by
  rw [mem_references_rank_iff, and_iff_left_iff_imp]
  intro _ e he hrequired
  exact absurd hrequired (by simp [hoptional e he])

/-- **Required and optional clauses select the right documents.** A document is found exactly if
some expansion reaches it and every required expansion does. A required expansion without matches
leaves nothing to be found, and a further optional expansion takes no document away. -/
theorem found_iff_reached (index : InvertedIndex) (es : List Expansion) :
    (∀ r, r ∈ (index.rank es).map (·.reference) ↔ (∃ e ∈ es, index.Reaches e r) ∧
      ∀ e ∈ es, e.clause.isRequired = true → index.Reaches e r) ∧
    ((∃ e ∈ es, e.clause.isRequired = true ∧ e.found = .empty) → index.rank es = []) ∧
    ∀ e, e.clause.isRequired = false → ∀ r ∈ (index.rank es).map (·.reference),
      r ∈ (index.rank (es ++ [e])).map (·.reference) := by
  refine ⟨fun r => mem_references_rank_iff, ?_, fun e hoptional r hr => ?_⟩
  · rintro ⟨e, he, hrequired, hempty⟩
    rw [← List.map_eq_nil_iff (f := SearchResult.reference), List.eq_nil_iff_forall_not_mem]
    intro r hr
    obtain ⟨m, hm, -⟩ := (mem_references_rank_iff.1 hr).2 e he hrequired
    rw [hempty] at hm
    cases hm
  · obtain ⟨⟨e', he', hreaches⟩, hall⟩ := mem_references_rank_iff.1 hr
    refine mem_references_rank_iff.2 ⟨⟨e', List.mem_append_left _ he', hreaches⟩, ?_⟩
    intro e'' he'' hrequired
    rcases List.mem_append.1 he'' with hmem | hmem
    · exact hall e'' hmem hrequired
    · rw [List.mem_singleton.1 hmem, hoptional] at hrequired
      cases hrequired

end InvertedIndex

end FullText
