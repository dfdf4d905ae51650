import FullText.Proofs.SortedMapKeys
import FullText.Search.Ranking

/-!
# The hits of a document

The hits of a list of expansions are met in three nested walks, over the clauses, over the matches
of a clause, and over the documents of a posting, and all documents are gathered in one table. Seen
from one document this is simple: its hits are the triples of a clause, a match of the clause, and
an entry of the posting for the document, in strictly ascending order, and its result is made of
these hits alone.

## Main definitions

* `Hit.Before` : the order in which hits are met.
* `InvertedIndex.documentHits`, `InvertedIndex.documentTally` : the hits of one document, and what
  is gathered from them.

## Main results

* `InvertedIndex.mem_hits_iff` : the hits, said without the walks.
* `InvertedIndex.pairwise_hits` : the order of the hits.
* `InvertedIndex.get?_tallies_eq_some_iff` : the table of tallies, said document by document.
* `InvertedIndex.mem_results_iff` : the results, said document by document.
-/

namespace FullText

/-- Whether a hit comes before another one: by the clause, then by the match, and then by the
reference. -/
def Hit.Before (g h : Hit) : Prop :=
  g.clause < h.clause ∨ g.clause = h.clause ∧
    (compare g.found h.found = .lt ∨
      g.found = h.found ∧ compare g.reference h.reference = .lt)

namespace InvertedIndex

variable {index : InvertedIndex} {es : List Expansion} {r : String}

/-! ### Hits without the walks -/

/-- A match has one hit for each document that its posting lists. -/
theorem mem_hitsOfMatch_iff {n : Nat} {c : Clause} {m : TermMatch} {h : Hit} :
    h ∈ index.hitsOfMatch n c m ↔ h.clause = n ∧ h.found = m ∧
      ∃ f p, index.field? m.field = some f ∧ f.posting? m.term = some p ∧
        p.occurrences? h.reference = some h.occurrences ∧
        h.contribution = index.contribution c m.field f p h.reference h.occurrences := by
  rw [hitsOfMatch]
  cases hf : index.field? m.field with
  | none => simp
  | some f =>
    cases hp : f.posting? m.term with
    | none => simp [hp]
    | some p =>
      simp only [List.mem_map, Prod.exists, Option.some.injEq, exists_and_left, exists_eq_left', hp,
        Posting.occurrences?, SortedMap.get?_eq_some_iff]
      constructor
      · rintro ⟨r, o, hmem, rfl⟩
        exact ⟨rfl, rfl, hmem, rfl⟩
      · rintro ⟨hn, hm, hmem, hx⟩
        refine ⟨h.reference, h.occurrences, hmem, ?_⟩
        rw [← hx, ← hn, ← hm]

/-- **There is one hit for each clause, each match of it, and each document that the posting of the
match lists.** -/
theorem mem_hits_iff {h : Hit} :
    h ∈ index.hits es ↔ ∃ e f p, es[h.clause]? = some e ∧ h.found ∈ SortedSet.toList e.found ∧
      index.field? h.found.field = some f ∧ f.posting? h.found.term = some p ∧
      p.occurrences? h.reference = some h.occurrences ∧
      h.contribution =
        index.contribution e.clause h.found.field f p h.reference h.occurrences := by
  simp only [hits, hitsOfExpansion, List.mem_flatMap, mem_hitsOfMatch_iff, Prod.exists,
    List.mem_zipIdx_iff_getElem?]
  constructor
  · rintro ⟨e, n, he, m, hm, rfl, rfl, f, p, hfp⟩
    exact ⟨e, f, p, he, hm, hfp⟩
  · rintro ⟨e, f, p, he, hm, hfp⟩
    exact ⟨e, _, he, _, hm, rfl, rfl, f, p, hfp⟩

/-! ### The order of hits -/

theorem pairwise_hitsOfMatch (n : Nat) (c : Clause) (m : TermMatch) :
    (index.hitsOfMatch n c m).Pairwise Hit.Before := by
  rw [hitsOfMatch]
  split
  · exact .nil
  · split
    · exact .nil
    · next p _ =>
      refine List.pairwise_map.2 (p.documents.ascending.imp fun hlt => ?_)
      exact .inr ⟨rfl, .inr ⟨rfl, hlt⟩⟩

theorem pairwise_hitsOfExpansion (e : Expansion × Nat) :
    (index.hitsOfExpansion e).Pairwise Hit.Before := by
  refine List.pairwise_flatMap.2 ⟨fun m _ => pairwise_hitsOfMatch _ _ _, ?_⟩
  refine (SortedMap.pairwise_keys e.1.found).imp fun hlt g hg h hh => ?_
  obtain ⟨hgn, rfl, -⟩ := mem_hitsOfMatch_iff.1 hg
  obtain ⟨hhn, rfl, -⟩ := mem_hitsOfMatch_iff.1 hh
  exact .inr ⟨hgn.trans hhn.symm, .inl hlt⟩

/-- **Hits are met in the order of the clauses, of the matches, and of the references,** and none
is met twice. -/
theorem pairwise_hits (index : InvertedIndex) (es : List Expansion) :
    (index.hits es).Pairwise Hit.Before := by
  refine List.pairwise_flatMap.2 ⟨fun e _ => pairwise_hitsOfExpansion e, ?_⟩
  have hnumber {e : Expansion × Nat} {h : Hit} (hh : h ∈ index.hitsOfExpansion e) :
      h.clause = e.2 := by
    obtain ⟨m, -, hm⟩ := List.mem_flatMap.1 hh
    exact (mem_hitsOfMatch_iff.1 hm).1
  refine List.pairwise_iff_getElem.2 fun i j hi hj hij g hg h hh => .inl ?_
  rw [hnumber hg, hnumber hh, List.getElem_zipIdx, List.getElem_zipIdx]
  omega

/-! ### What is gathered about a document -/

/-- The hits of a document, in the order in which they are met. -/
def documentHits (index : InvertedIndex) (es : List Expansion) (reference : String) : List Hit :=
  (index.hits es).filter fun h => h.reference = reference

/-- What is gathered from the hits of a document. -/
def documentTally (index : InvertedIndex) (es : List Expansion) (reference : String) : Tally :=
  (index.documentHits es reference).foldl Tally.add .empty

theorem mem_documentHits_iff {h : Hit} :
    h ∈ index.documentHits es r ↔ h ∈ index.hits es ∧ h.reference = r := by
  simp [documentHits]

private theorem foldl_gather (t : Tally) (hs : List Hit) :
    hs.foldl (fun present h => some ((present.getD .empty).add h)) (some t) =
      some (hs.foldl Tally.add t) := by
  induction hs generalizing t with
  | nil => rfl
  | cons h hs ih => exact ih _

/-- The table has a tally for each document that has hits, and it is that of these hits in their
order. -/
theorem get?_tallies_eq_some_iff {t : Tally} :
    (tallies (index.hits es)).get? r = some t ↔
      index.documentHits es r ≠ [] ∧ t = index.documentTally es r := by
  have hfold : (tallies (index.hits es)).get? r = _ := SortedMap.get?_foldl_upsert Hit.reference
    (fun h present => (present.getD Tally.empty).add h) (index.hits es) .empty r
  rw [hfold, SortedMap.get?_empty, documentTally, documentHits]
  cases (index.hits es).filter fun h => decide (h.reference = r) with
  | nil => simp
  | cons h rest =>
    rw [List.foldl_cons, foldl_gather]
    simp [eq_comm]

theorem score_foldl_add (t : Tally) (hs : List Hit) :
    (hs.foldl Tally.add t).score = (hs.map (·.contribution)).foldl (· + ·) t.score := by
  rw [List.foldl_map]
  exact (List.foldl_hom Tally.score fun _ _ => rfl).symm

theorem matchData_foldl_add (t : Tally) (hs : List Hit) :
    (hs.foldl Tally.add t).matchData =
      hs.foldl (fun m h => m.add h.found.field h.found.term h.occurrences) t.matchData :=
  (List.foldl_hom Tally.matchData fun _ _ => rfl).symm

/-- A result is made of the tally of its document, which must have all required clauses. -/
theorem mem_results_iff {result : SearchResult} :
    result ∈ index.results es ↔ index.documentHits es result.reference ≠ [] ∧
      ((requiredClauses es).all fun n =>
        isAmong n (index.documentTally es result.reference).clauses) = true ∧
      result.score = (index.documentTally es result.reference).score ∧
      result.matchData = (index.documentTally es result.reference).matchData := by
  have hmem (r : String) (t : Tally) :
      (r, t) ∈ (tallies (index.hits es)).entries ↔
        index.documentHits es r ≠ [] ∧ t = index.documentTally es r :=
    SortedMap.get?_eq_some_iff.symm.trans get?_tallies_eq_some_iff
  simp only [results, List.mem_filterMap, Prod.exists, Option.ite_none_right_eq_some, hmem]
  constructor
  · rintro ⟨reference, t, ⟨hne, rfl⟩, hall, heq⟩
    rw [← Option.some.inj heq]
    exact ⟨hne, hall, rfl, rfl⟩
  · rintro ⟨hne, hall, hscore, hdata⟩
    refine ⟨result.reference, _, ⟨hne, rfl⟩, hall, ?_⟩
    rw [← hscore, ← hdata]

end InvertedIndex

end FullText
