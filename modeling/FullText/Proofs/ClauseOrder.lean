import FullText.Proofs.ExactSums
import FullText.Proofs.MatchRecords
import FullText.Proofs.RankOrder
import FullText.Proofs.ScoreSums

/-!
# The order of clauses

If the expansions are put in another order, the same documents are found, the same terms are
recorded, and each score is a sum of the same contributions. But these are added in another order,
and since floating-point addition is not associative, a score may change in its last place. That is
enough to exchange two results. Scores and ranking are the same if the sums are not rounded, or if
no document gets more than two contributions.

## Main definitions

* `Hit.unnumbered` : a hit without the number of its clause.
* `InvertedIndex.summands` : what is added up for a document.

## Main results

* `InvertedIndex.documentHits_perm` : but for the numbers of the clauses, the hits are the same.
* `InvertedIndex.matchData_documentTally_eq` : the match data is the same.
* `InvertedIndex.rank_of_perm` : **what the order of clauses does not change.**
* `InvertedIndex.rank_depends_on_order` : it can change the order of the results.
-/

namespace FullText

/-- A hit without the number of its clause. -/
def Hit.unnumbered (h : Hit) : Hit := { h with clause := 0 }

namespace InvertedIndex

open Binary64 (AddExactly)

variable {index : InvertedIndex} {es es' : List Expansion} {r : String}

/-! ### Hits -/

theorem map_unnumbered_hitsOfMatch (n : Nat) (c : Clause) (m : TermMatch) :
    (index.hitsOfMatch n c m).map Hit.unnumbered = index.hitsOfMatch 0 c m := by
  rw [hitsOfMatch, hitsOfMatch]
  cases index.field? m.field with
  | none => rfl
  | some f =>
    cases hp : f.posting? m.term with
    | none => simp [hp]
    | some p =>
      simp only [hp, List.map_map]
      rfl

/-- But for the numbers of the clauses, each expansion has its own hits. -/
theorem map_unnumbered_hits (index : InvertedIndex) (es : List Expansion) :
    (index.hits es).map Hit.unnumbered = es.flatMap fun e => index.hitsOfExpansion (e, 0) := by
  have hexpansion (e : Expansion × Nat) :
      (index.hitsOfExpansion e).map Hit.unnumbered = index.hitsOfExpansion (e.1, 0) := by
    rw [hitsOfExpansion, hitsOfExpansion, List.map_flatMap]
    simp only [map_unnumbered_hitsOfMatch]
  rw [hits, List.map_flatMap]
  simp only [hexpansion]
  conv_rhs => rw [← List.zipIdx_map_fst 0 es, List.flatMap_map]

/-- **But for the numbers of the clauses, the hits of a document are the same.** -/
theorem documentHits_perm (hperm : es'.Perm es) (index : InvertedIndex) (r : String) :
    ((index.documentHits es' r).map Hit.unnumbered).Perm
      ((index.documentHits es r).map Hit.unnumbered) := by
  have hfilter (es : List Expansion) : (index.documentHits es r).map Hit.unnumbered =
      (es.flatMap fun e => index.hitsOfExpansion (e, 0)).filter fun h => h.reference = r := by
    rw [documentHits, ← map_unnumbered_hits, List.filter_map]
    rfl
  rw [hfilter, hfilter]
  exact (hperm.flatMap_right _).filter _

/-! ### Match data -/

/-- The match data of a document does not depend on the order of the expansions. -/
theorem matchData_documentTally_eq (hperm : es'.Perm es) (index : InvertedIndex) (r : String) :
    (index.documentTally es' r).matchData = (index.documentTally es r).matchData := by
  refine (index.tells_documentTally es' r).ext (index.tells_documentTally es r) fun s => ?_
  have hrecords := (documentHits_perm hperm index r).map fun h => (h.found, h.occurrences)
  rw [List.map_map, List.map_map] at hrecords
  exact hrecords.mem_iff

/-! ### Scores -/

/-- What is added up for a document. -/
def summands (index : InvertedIndex) (es : List Expansion) (reference : String) : List Binary64 :=
  (index.documentHits es reference).map (·.contribution)

theorem summands_perm (hperm : es'.Perm es) (index : InvertedIndex) (r : String) :
    (index.summands es' r).Perm (index.summands es r) := by
  have hcontributions := (documentHits_perm hperm index r).map (·.contribution)
  rwa [List.map_map, List.map_map] at hcontributions

theorem score_documentTally (index : InvertedIndex) (es : List Expansion) (r : String) :
    (index.documentTally es r).score = Binary64.sum (index.summands es r) :=
  score_foldl_add _ _

/-! ### Results -/

/-- The documents that are found, with their match data. -/
theorem mem_map_rank_iff {p : String × MatchData} :
    p ∈ (index.rank es).map (fun result => (result.reference, result.matchData)) ↔
      (∃ e ∈ es, index.Reaches e p.1) ∧
      (∀ e ∈ es, e.clause.isRequired = true → index.Reaches e p.1) ∧
      p.2 = (index.documentTally es p.1).matchData := by
  rw [List.mem_map]
  constructor
  · rintro ⟨result, hresult, rfl⟩
    obtain ⟨hreached, hrequired, -, hdata⟩ := mem_rank_iff.1 hresult
    exact ⟨hreached, hrequired, hdata⟩
  · rintro ⟨hreached, hrequired, hdata⟩
    let t := index.documentTally es p.1
    exact ⟨⟨p.1, t.score, p.2⟩, mem_rank_iff.2 ⟨hreached, hrequired, rfl, hdata⟩, rfl⟩

/-- The same documents are found with the same match data. -/
theorem map_rank_perm (hperm : es'.Perm es) (index : InvertedIndex) :
    ((index.rank es').map fun result => (result.reference, result.matchData)).Perm
      ((index.rank es).map fun result => (result.reference, result.matchData)) := by
  have hnodup (es : List Expansion) :
      ((index.rank es).map fun result => (result.reference, result.matchData)).Nodup := by
    refine List.Nodup.of_map Prod.fst ?_
    rw [List.map_map]
    exact index.nodup_references_rank es
  refine (List.perm_ext_iff_of_nodup (hnodup es') (hnodup es)).2 fun p => ?_
  simp only [mem_map_rank_iff, hperm.mem_iff, matchData_documentTally_eq hperm]

/-- The ranking is the same if all sums are. -/
theorem rank_eq_of_sums (hperm : es'.Perm es)
    (hsums : ∀ result ∈ index.rank es, Binary64.sum (index.summands es' result.reference) =
      Binary64.sum (index.summands es result.reference)) : index.rank es' = index.rank es := by
  have hnodup := index.nodup_references_results
  refine mergeSort_eq_of_perm (hnodup es) ?_
  refine (List.perm_ext_iff_of_nodup (hnodup es').of_map (hnodup es).of_map).2 fun result => ?_
  have hrank (es : List Expansion) : result ∈ index.results es ↔ result ∈ index.rank es := by
    rw [rank, List.mem_mergeSort]
  rw [hrank, hrank, mem_rank_iff, mem_rank_iff]
  simp only [hperm.mem_iff, matchData_documentTally_eq hperm, score_documentTally]
  refine and_congr_right fun hreached => and_congr_right fun hrequired => ?_
  have hfound : result.reference ∈ (index.rank es).map (·.reference) :=
    mem_references_rank_iff.2 ⟨hreached, hrequired⟩
  obtain ⟨result', hresult', href⟩ := List.mem_map.1 hfound
  rw [← href, hsums result' hresult']

/-- **What the order of clauses does not change.** In any order of the expansions the same
documents are found with the same match data, and each score is the sum of the same contributions,
in one order or another. If each document has at most two contributions, which are numbers, or its
contributions add exactly, then the ranking is the same with all scores. -/
theorem rank_of_perm (index : InvertedIndex) {es es' : List Expansion} (hperm : es'.Perm es) :
    ((index.rank es').map fun result => (result.reference, result.matchData)).Perm
      ((index.rank es).map fun result => (result.reference, result.matchData)) ∧
    (∀ result ∈ index.rank es', result.score = Binary64.sum (index.summands es' result.reference) ∧
      (index.summands es' result.reference).Perm (index.summands es result.reference)) ∧
    ((∀ result ∈ index.rank es,
      ((index.summands es result.reference).length ≤ 2 ∧
        ∀ x ∈ index.summands es result.reference, x.isNaN = false) ∨
      AddExactly (index.summands es result.reference)) → index.rank es' = index.rank es) := by
  refine ⟨map_rank_perm hperm index, fun result hresult => ⟨?_, summands_perm hperm index _⟩,
    fun hsummands => rank_eq_of_sums hperm fun result hresult => ?_⟩
  · rw [(mem_rank_iff.1 hresult).2.2.1, score_documentTally]
  · exact Binary64.sum_eq_of_perm (summands_perm hperm index _) (hsummands result hresult)

theorem rank_of_perm_sample :
    let es := [Sample.tree "ash" .one, Sample.tree "elm" .half, Sample.tree "oak" .half,
      Sample.tree "fir" .one]
    es.reverse.Perm es ∧ Sample.trees.rank es.reverse = Sample.trees.rank es := by
  intro es
  refine ⟨es.reverse_perm, (Sample.trees.rank_of_perm es.reverse_perm).2.2 ?_⟩
  simp only [rank, List.mem_mergeSort]
  -- All contributions are multiples of one half, which has `2 ^ 1073` units.
  have hexact : ∀ result ∈ Sample.trees.results es,
      (∀ x ∈ Sample.trees.summands es result.reference,
        x.isFinite = true ∧ (2 ^ 1073 : Int) ∣ x.value) ∧
      ((Sample.trees.summands es result.reference).map fun x => x.value.natAbs).sum <
        2 ^ 53 * 2 ^ 1073 := by
    decide +kernel
  exact fun result hresult => .inr ⟨1073, by decide, hexact result hresult⟩

/-! ### Results that change places -/

/-- The order of two results is decided by their scores, and then by their references. -/
theorem references_rank_pair {r s : String} {x y : Binary64}
    (h : (index.results es).map (fun result => (result.reference, result.score)) =
      [(r, x), (s, y)]) :
    (index.rank es).map (·.reference) =
      if y.totalKey < x.totalKey ∨ x.totalKey = y.totalKey ∧ r ≤ s then [r, s] else [s, r] := by
  have hlength : (index.results es).length = 2 := by
    simpa using congrArg List.length h
  obtain ⟨a, b, hab⟩ := List.length_eq_two.1 hlength
  rw [hab] at h
  obtain ⟨⟨rfl, rfl⟩, rfl, rfl⟩ : (a.reference = r ∧ a.score = x) ∧
      b.reference = s ∧ b.score = y := by
    simpa using h
  have hsort : [a, b].mergeSort ranksBefore = if ranksBefore a b then [a, b] else [b, a] := by
    rw [List.mergeSort]
    simp [List.merge]
  simp only [rank, hab, hsort, ranksBefore_iff]
  split <;> rfl

/-- Clauses for the three terms of one document with the boosts 0.1, 0.2 and 0.3, and one for the
term of the other document with the boost 0.6. -/
def Sample.tenths : List Expansion :=
  [Sample.tree "ash" ⟨0x3FB999999999999A⟩, Sample.tree "elm" ⟨0x3FC999999999999A⟩,
    Sample.tree "fir" ⟨0x3FD3333333333333⟩, Sample.tree "oak" ⟨0x3FE3333333333333⟩]

/-- **The order of clauses can exchange results.** The numbers 0.1, 0.2 and 0.3 add up to more than
0.6 in this order, and to 0.6 in the opposite one. -/
theorem rank_depends_on_order :
    Sample.tenths.reverse.Perm Sample.tenths ∧
    (Sample.trees.rank Sample.tenths).map (·.reference) = ["b", "a"] ∧
    (Sample.trees.rank Sample.tenths.reverse).map (·.reference) = ["a", "b"] := by
  have hscores : (Sample.trees.results Sample.tenths).map (fun r => (r.reference, r.score)) =
      [("a", ⟨0x3FE3333333333333⟩), ("b", ⟨0x3FE3333333333334⟩)] := by
    decide +kernel
  have hscores' : (Sample.trees.results Sample.tenths.reverse).map
      (fun r => (r.reference, r.score)) =
        [("a", ⟨0x3FE3333333333333⟩), ("b", ⟨0x3FE3333333333333⟩)] := by
    decide +kernel
  refine ⟨List.reverse_perm _, ?_, ?_⟩
  · rw [references_rank_pair hscores]
    decide
  · rw [references_rank_pair hscores']
    decide

end InvertedIndex

end FullText
