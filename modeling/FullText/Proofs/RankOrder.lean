import FullText.Proofs.ByteOrder
import FullText.Proofs.NearestNumber
import FullText.Proofs.RequiredClauses

/-!
# The order of results

Results are sorted by a comparison that never lets two results of a ranking tie: scores are compared
by their bits, whatever numbers they stand for, and two results with the same bits have different
references. Hence there is only one way to sort the results of a list of expansions. It does not
matter in which order the documents are taken from the table in which their hits are gathered, so
the table may be a hash table, with any hash function.

## Main definitions

* `SearchResult.Precedes` : the strict order of results.
* `InvertedIndex.rankEntries` : the ranking of the entries of a table, in any order.
* `InvertedIndex.hashedTallies` : the gathering of hits in a hash table.

## Main results

* `SearchResult.pairwise_precedes_mergeSort` : results of different documents are sorted strictly.
* `InvertedIndex.rankEntries_eq_of_perm` : the order of the entries does not matter.
* `InvertedIndex.hashedTallies_perm` : a hash table holds the same entries.
* `InvertedIndex.rank_strictly_ordered` : **a ranking is strict, and does not depend on hashing.**
-/

namespace FullText

/-- The key of the total order tells all bit patterns apart. -/
theorem Binary64.totalKey_inj {x y : Binary64} : x.totalKey = y.totalKey ↔ x = y := by
  refine ⟨fun h => ?_, congrArg _⟩
  rw [← ofMagnitude_magnitude x, ← ofMagnitude_magnitude y]
  cases hx : x.isNegative <;> cases hy : y.isNegative <;> simp only [totalKey, hx, hy] at h
  case false.false | true.true =>
    have hmagnitude : x.magnitude = y.magnitude := by simpa using h
    rw [hmagnitude]
  all_goals
    simp only [if_true, Bool.false_eq_true, if_false] at h
    omega

namespace SearchResult

variable {r s t : SearchResult}

/-- Whether a result stands before another one: its score is greater in the total order of the bit
patterns, or the scores have the same bits and its reference is less in the order of the bytes. -/
def Precedes (r s : SearchResult) : Prop :=
  s.score.totalKey < r.score.totalKey ∨
    r.score = s.score ∧ r.reference.toUTF8.toList < s.reference.toUTF8.toList

theorem precedes_iff : r.Precedes s ↔ s.score.totalKey < r.score.totalKey ∨
    r.score.totalKey = s.score.totalKey ∧ r.reference < s.reference := by
  rw [Precedes, Binary64.totalKey_inj, Text.toUTF8_lt_iff]

theorem not_precedes_self (r : SearchResult) : ¬ r.Precedes r := by
  simp [precedes_iff]

theorem Precedes.trans (hrs : r.Precedes s) (hst : s.Precedes t) : r.Precedes t := by
  rw [precedes_iff] at *
  rcases hrs with hrs | ⟨hrs, hrs'⟩ <;> rcases hst with hst | ⟨hst, hst'⟩
  · exact .inl (hst.trans hrs)
  · exact .inl (hst ▸ hrs)
  · exact .inl (hrs ▸ hst)
  · exact .inr ⟨hrs.trans hst, hrs'.trans hst'⟩

end SearchResult

namespace InvertedIndex

open SearchResult (Precedes)

variable {index : InvertedIndex} {es : List Expansion}

/-! ### Sorting -/

theorem ranksBefore_iff {r s : SearchResult} :
    ranksBefore r s = true ↔ s.score.totalKey < r.score.totalKey ∨
      r.score.totalKey = s.score.totalKey ∧ r.reference ≤ s.reference := by
  simp [ranksBefore]

theorem ranksBefore_trans {r s t : SearchResult} (hrs : ranksBefore r s = true)
    (hst : ranksBefore s t = true) : ranksBefore r t = true := by
  rw [ranksBefore_iff] at *
  rcases hrs with hrs | ⟨hrs, hrs'⟩ <;> rcases hst with hst | ⟨hst, hst'⟩
  · exact .inl (hst.trans hrs)
  · exact .inl (hst ▸ hrs)
  · exact .inl (hrs ▸ hst)
  · exact .inr ⟨hrs.trans hst, hrs'.trans hst'⟩

theorem ranksBefore_total (r s : SearchResult) : (ranksBefore r s || ranksBefore s r) = true := by
  rw [Bool.or_eq_true, ranksBefore_iff, ranksBefore_iff]
  rcases Int.lt_trichotomy r.score.totalKey s.score.totalKey with h | h | h
  · exact .inr (.inl h)
  · exact (le_total r.reference s.reference).imp (fun hle => .inr ⟨h, hle⟩)
      fun hle => .inr ⟨h.symm, hle⟩
  · exact .inl (.inl h)

/-- **Results of different documents are sorted strictly.** -/
theorem pairwise_precedes_mergeSort {rs : List SearchResult}
    (hnodup : (rs.map (·.reference)).Nodup) : (rs.mergeSort ranksBefore).Pairwise Precedes := by
  have hsorted : (rs.mergeSort ranksBefore).Pairwise fun r s => ranksBefore r s = true :=
    @List.pairwise_mergeSort _ ranksBefore (fun _ _ _ => ranksBefore_trans) ranksBefore_total rs
  have hreferences := (List.mergeSort_perm rs ranksBefore).map SearchResult.reference
  have hdistinct : (rs.mergeSort ranksBefore).Pairwise fun r s => r.reference ≠ s.reference :=
    List.pairwise_map.1 (hreferences.nodup_iff.2 hnodup)
  refine (hsorted.and hdistinct).imp fun ⟨hbefore, hne⟩ => ?_
  rw [SearchResult.precedes_iff]
  exact (ranksBefore_iff.1 hbefore).imp_right fun ⟨hscore, hle⟩ => ⟨hscore, lt_of_le_of_ne hle hne⟩

/-- Results of different documents are sorted in one way only. -/
theorem mergeSort_eq_of_perm {rs ss : List SearchResult} (hnodup : (rs.map (·.reference)).Nodup)
    (hperm : ss.Perm rs) : ss.mergeSort ranksBefore = rs.mergeSort ranksBefore := by
  have hnodup' : (ss.map (·.reference)).Nodup := (hperm.map (·.reference)).nodup_iff.2 hnodup
  refine List.Perm.eq_of_pairwise (fun r s _ _ hrs hsr => ?_)
    (pairwise_precedes_mergeSort hnodup') (pairwise_precedes_mergeSort hnodup) ?_
  · exact absurd (hrs.trans hsr) r.not_precedes_self
  · exact ((List.mergeSort_perm ss _).trans hperm).trans (List.mergeSort_perm rs _).symm

/-! ### The table of tallies -/

/-- The result of an entry of the table, unless it misses a required clause. -/
def resultOf? (es : List Expansion) (e : String × Tally) : Option SearchResult :=
  if (requiredClauses es).all fun n => isAmong n e.2.clauses then
    some ⟨e.1, e.2.score, e.2.matchData⟩
  else none

/-- The ranking of the entries of a table, which may be taken from it in any order. -/
def rankEntries (es : List Expansion) (entries : List (String × Tally)) : List SearchResult :=
  (entries.filterMap (resultOf? es)).mergeSort ranksBefore

theorem rank_eq_rankEntries (index : InvertedIndex) (es : List Expansion) :
    index.rank es = rankEntries es (tallies (index.hits es)).entries := rfl

/-- **The order in which entries are taken from the table does not matter.** -/
theorem rankEntries_eq_of_perm {entries : List (String × Tally)}
    (h : entries.Perm (tallies (index.hits es)).entries) :
    rankEntries es entries = index.rank es := by
  rw [rank_eq_rankEntries]
  exact mergeSort_eq_of_perm (index.nodup_references_results es) (h.filterMap _)

section Hashing

variable [Hashable String]

/-- Gathers the hits of each document in a hash table. -/
def hashedTallies (hs : List Hit) : Std.HashMap String Tally :=
  hs.foldl (fun ts h => ts.insert h.reference ((ts.getD h.reference .empty).add h)) ∅

theorem getElem?_hashedTallies (hs : List Hit) (r : String) :
    (hashedTallies hs)[r]? = (tallies hs).get? r := by
  have hstep (ts : Std.HashMap String Tally) (ts' : SortedMap String Tally)
      (hts : ∀ r, ts[r]? = ts'.get? r) :
      (hs.foldl (fun ts h => ts.insert h.reference ((ts.getD h.reference .empty).add h)) ts)[r]? =
        (hs.foldl (fun ts h =>
          ts.upsert h.reference fun present => (present.getD .empty).add h) ts').get? r := by
    induction hs generalizing ts ts' with
    | nil => exact hts r
    | cons h hs ih =>
      refine ih _ _ fun s => ?_
      simp only [Std.HashMap.getElem?_insert, SortedMap.get?_upsert,
        Std.HashMap.getD_eq_getD_getElem?, hts, beq_iff_eq, eq_comm (a := s)]
  exact hstep ∅ .empty fun r => by simp

/-- A hash table holds the entries of the sorted one, in an order of its own. -/
theorem hashedTallies_perm (hs : List Hit) :
    (hashedTallies hs).toList.Perm (tallies hs).entries := by
  have hnodup : (hashedTallies hs).toList.Nodup :=
    Std.HashMap.distinct_keys_toList.imp fun hne heq => by simp [heq] at hne
  have hnodup' : (tallies hs).entries.Nodup := (SortedMap.nodup_keys (tallies hs)).of_map
  refine (List.perm_ext_iff_of_nodup hnodup hnodup').2 fun e => ?_
  rw [Std.HashMap.mem_toList_iff_getElem?_eq_some, getElem?_hashedTallies,
    SortedMap.get?_eq_some_iff]

end Hashing

/-- **A ranking is strict, and does not depend on hashing.** No two results have the same reference,
each result stands strictly before those after it, and the ranking is the same in whatever order the
entries are taken from the table of tallies, in particular for a hash table with any hash
function. -/
theorem rank_strictly_ordered (index : InvertedIndex) (es : List Expansion) :
    ((index.rank es).map (·.reference)).Nodup ∧
    (index.rank es).Pairwise Precedes ∧
    (∀ entries : List (String × Tally), entries.Perm (tallies (index.hits es)).entries →
      rankEntries es entries = index.rank es) ∧
    ∀ _hashing : Hashable String,
      rankEntries es (hashedTallies (index.hits es)).toList = index.rank es := by
  refine ⟨index.nodup_references_rank es, ?_, fun _ => rankEntries_eq_of_perm, fun _ => ?_⟩
  · exact pairwise_precedes_mergeSort (index.nodup_references_results es)
  · exact rankEntries_eq_of_perm (hashedTallies_perm _)

end InvertedIndex

end FullText
