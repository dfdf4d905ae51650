import FullText.Search.Expansion
import FullText.Search.MatchData

/-!
# Scoring and ranking

Every posting that a clause reaches contributes to the scores of its documents:

`(1 + ln tf) * idf * field boost * clause boost * norm`

where `norm` is `1 / (1 - b + b * length / average length)`, or one if `b` or the average length is
zero. The score of a document is the sum of its contributions in the order in which they are met:
clause by clause, and within a clause by field and term. A document is found if it misses no
required clause. Results are ranked by descending score in the total order of the bit patterns, and
documents with the same score by ascending reference.

## Main definitions

* `Hit` : a document that a match of a clause leads to.
* `InvertedIndex.hits` : all hits of a list of expansions.
* `Tally` : what has been gathered about a document.
* `isAmong` : the search among ascending numbers.
* `InvertedIndex.rank` : the results, ranked.

## Main results

* `isAmong_iff` : the search finds exactly the members.
-/

namespace FullText

/-- A document that a match of a clause leads to. -/
structure Hit where
  /-- The number of the clause. -/
  clause : Nat
  /-- The match. -/
  found : TermMatch
  /-- The reference of the document. -/
  reference : String
  /-- The occurrences of the term in the document. -/
  occurrences : Occurrences
  /-- The contribution to the score of the document. -/
  contribution : Binary64

/-- What has been gathered about a document. -/
structure Tally where
  /-- The sum of the contributions. -/
  score : Binary64
  /-- The numbers of the clauses that led to the document, in ascending order. -/
  clauses : List Nat
  /-- The terms that matched. -/
  matchData : MatchData

namespace Tally

/-- Nothing gathered. -/
def empty : Tally := ⟨.zero, [], .empty⟩

/-- Adds a hit. Hits come clause by clause, so a clause that was noted before was the last one
noted. -/
def add (t : Tally) (h : Hit) : Tally where
  score := t.score + h.contribution
  clauses := if t.clauses.getLast? = some h.clause then t.clauses else t.clauses ++ [h.clause]
  matchData := t.matchData.add h.found.field h.found.term h.occurrences

end Tally

/-! ### Ascending numbers -/

/-- Whether a number is among ascending numbers. They are halved, and the half that can hold the
number is kept, until one is left. -/
def isAmong (n : Nat) (ns : List Nat) : Bool :=
  if h : ns.length ≤ 1 then decide (ns.head? = some n)
  else
    let half := ns.length / 2
    if n < ns[half] then isAmong n (ns.take (ns.length - half)) else isAmong n (ns.drop half)
termination_by ns.length
decreasing_by all_goals simp only [List.length_take, List.length_drop]; omega

/-- **Among ascending numbers the search finds exactly the members.** -/
theorem isAmong_iff {n : Nat} {ns : List Nat} (hns : ns.Pairwise (· < ·)) :
    isAmong n ns = true ↔ n ∈ ns := by
  fun_induction isAmong n ns with
  | case1 ns hshort =>
    rw [decide_eq_true_iff]
    match ns, hshort with
    | [], _ => simp
    | [m], _ => simp [eq_comm]
  | case2 ns hlong half hlt ih =>
    rw [ih (hns.sublist (List.take_sublist _ _))]
    refine ⟨List.mem_of_mem_take, fun hn => ?_⟩
    obtain ⟨i, hi, rfl⟩ := List.getElem_of_mem hn
    -- The number is less than the middle one, so it stands before it.
    have hbefore : i < half := Nat.lt_of_not_le fun hge => by
      rcases Nat.lt_or_eq_of_le hge with hgt | rfl
      · exact Nat.lt_asymm hlt (List.pairwise_iff_getElem.1 hns half i (by omega) hi hgt)
      · exact Nat.lt_irrefl _ hlt
    refine List.mem_take_iff_getElem.2 ⟨i, ?_, rfl⟩
    have hhalf : half = ns.length / 2 := rfl
    omega
  | case3 ns hlong half hge ih =>
    rw [ih (hns.sublist (List.drop_sublist _ _))]
    refine ⟨List.mem_of_mem_drop, fun hn => ?_⟩
    obtain ⟨i, hi, rfl⟩ := List.getElem_of_mem hn
    have hafter : half ≤ i := Nat.le_of_not_lt fun hlt =>
      hge (List.pairwise_iff_getElem.1 hns i half hi (by omega) hlt)
    exact List.mem_drop_iff_getElem.2 ⟨i - half, by omega, by simp [Nat.add_sub_cancel' hafter]⟩

namespace InvertedIndex

/-! ### Hits -/

/-- The factor for the length of a field in a document. -/
def norm (index : InvertedIndex) (f : FieldIndex) (reference : String) : Binary64 :=
  let b := index.config.lengthNormalization
  let average := f.averageLength
  if b.same .zero || average.same .zero then .one
  else
    let length := Binary64.ofNat ((f.length? reference).getD 0).toNat
    .one / (.one - b + b * length / average)

/-- The boost of a field. -/
def fieldBoost (index : InvertedIndex) (field : String) : Binary64 :=
  ((index.config.field? field).map (·.boost)).getD .one

/-- The contribution of the occurrences of a term to the score of a document. -/
def contribution (index : InvertedIndex) (c : Clause) (field : String) (f : FieldIndex)
    (p : Posting) (reference : String) (o : Occurrences) : Binary64 :=
  frequencyWeight o.frequency * p.idf * index.fieldBoost field * c.boost * index.norm f reference

/-- The hits of a match of a clause, in the order of the references. There are none if the index
does not hold the term. -/
def hitsOfMatch (index : InvertedIndex) (number : Nat) (c : Clause) (m : TermMatch) : List Hit :=
  match index.field? m.field with
  | none => []
  | some f =>
    match f.posting? m.term with
    | none => []
    | some p => p.documents.entries.map fun (reference, o) =>
        ⟨number, m, reference, o, index.contribution c m.field f p reference o⟩

/-- The hits of an expansion. -/
def hitsOfExpansion (index : InvertedIndex) (e : Expansion × Nat) : List Hit :=
  (SortedSet.toList e.1.found).flatMap (index.hitsOfMatch e.2 e.1.clause)

/-- All hits of a list of expansions. -/
def hits (index : InvertedIndex) (es : List Expansion) : List Hit :=
  es.zipIdx.flatMap index.hitsOfExpansion

/-! ### Results -/

/-- Gathers the hits of each document. -/
def tallies (hs : List Hit) : SortedMap String Tally :=
  hs.foldl (fun ts h => ts.upsert h.reference fun present => (present.getD .empty).add h) .empty

/-- The numbers of the required clauses. -/
def requiredClauses (es : List Expansion) : List Nat :=
  (es.zipIdx.filter fun e => e.1.clause.isRequired).map (·.2)

/-- Whether one result may come before another: its score is greater, or it is the same and its
reference is not greater. -/
def ranksBefore (r s : SearchResult) : Bool :=
  decide (s.score.totalKey < r.score.totalKey) ||
    (decide (r.score.totalKey = s.score.totalKey) && decide (r.reference ≤ s.reference))

/-- The documents that miss no required clause, with their scores. The clauses that led to a
document are noted in ascending order, so a required one is searched for among them by halves. -/
def results (index : InvertedIndex) (es : List Expansion) : List SearchResult :=
  (tallies (index.hits es)).entries.filterMap fun (reference, t) =>
    if (requiredClauses es).all fun n => isAmong n t.clauses then
      some ⟨reference, t.score, t.matchData⟩
    else none

/-- The results, ranked. -/
def rank (index : InvertedIndex) (es : List Expansion) : List SearchResult :=
  (index.results es).mergeSort ranksBefore

end InvertedIndex

end FullText
