import FullText.Clause
import FullText.EditDistance
import FullText.InvertedIndex

/-!
# Expansion of clauses

To expand a clause is to find the terms of the vocabularies that it asks for: the term itself, the
terms that its pattern matches, or the terms within its edit distance.

## Main definitions

* `TermMatch` : a term in a field. Matches are ordered by field and then by term.
* `TermFilter` : what a clause asks of a term.
* `TermFilter.select` : the terms of a field that meet it.
* `Expansion` : a clause with its matches.
* `InvertedIndex.expand` : the matches of a clause.
-/

namespace FullText

/-- A term in a field. -/
structure TermMatch where
  /-- The name of the field. -/
  field : String
  /-- The term. -/
  term : String
  deriving DecidableEq

namespace TermMatch

/-- Matches are ordered by field and then by term. -/
instance : Ord TermMatch := ⟨compareLex (compareOn TermMatch.field) (compareOn TermMatch.term)⟩

instance : Std.TransOrd TermMatch :=
  inferInstanceAs (Std.TransCmp (compareLex (compareOn TermMatch.field) (compareOn TermMatch.term)))

instance : Std.LawfulEqOrd TermMatch where
  eq_of_compare {a b} h := by
    obtain ⟨hf, ht⟩ := Ordering.then_eq_eq.1 (show
      ((compare a.field b.field).then (compare a.term b.term)) = .eq from h)
    cases a; cases b
    exact congr (congrArg TermMatch.mk (Std.LawfulEqCmp.eq_of_compare hf))
      (Std.LawfulEqCmp.eq_of_compare ht)

end TermMatch

/-! ### What a clause asks for -/

/-- What a clause asks of a term. -/
inductive TermFilter
  /-- The term is this one. -/
  | exact (term : String)
  /-- The pattern matches the term. -/
  | pattern (glob : Glob)
  /-- The term is within an edit distance of this one. -/
  | fuzzy (term : String) (limit : Nat)

namespace TermFilter

/-- What a clause asks for. An edit distance of zero asks for the term itself. -/
def ofClause (c : Clause) : Except Error TermFilter :=
  if c.isPattern then (Glob.compile c.term).map pattern
  else match c.distance with
    | some d => .ok (if 0 < d.toNat then fuzzy c.term d.toNat else exact c.term)
    | none => .ok (exact c.term)

/-- Whether a term meets the filter. -/
def accepts : TermFilter → String → Bool
  | exact term, t => decide (t = term)
  | pattern glob, t => glob.accepts t.toList
  | fuzzy term limit, t => EditDistance.isWithin term.toList t.toList limit

/-- The terms of a field that meet the filter, in ascending order. A single term is looked up. The
matches of a pattern with a literal head are looked for among the terms that start with it, and
all other matches in the whole vocabulary. -/
def select (f : FieldIndex) : TermFilter → List String
  | exact term => if f.terms.contains term then [term] else []
  | pattern glob =>
    if glob.literalHead.isEmpty then f.vocabulary.filter fun t => glob.accepts t.toList
    else (f.termsFrom glob.literalHead).filter fun t => glob.accepts t.toList
  | fuzzy term limit =>
    f.vocabulary.filter fun t => EditDistance.isWithin term.toList t.toList limit

end TermFilter

/-! ### Expansions -/

/-- A clause with its matches. -/
structure Expansion where
  /-- The clause. -/
  clause : Clause
  /-- The matches. -/
  found : SortedSet TermMatch

namespace InvertedIndex

/-- The field indexes that a clause looks at. -/
def scope (index : InvertedIndex) (c : Clause) : List (String × FieldIndex) :=
  index.configuredFields.filter fun (name, _) => c.field.all fun wanted => wanted = name

/-- The terms that a filter selects in the fields that a clause looks at. -/
def matchesOf (index : InvertedIndex) (c : Clause) (filter : TermFilter) : List TermMatch :=
  (index.scope c).flatMap fun (name, f) => (filter.select f).map fun term => ⟨name, term⟩

/-- The matches of a clause. -/
def expand (index : InvertedIndex) (c : Clause) : Except Error (SortedSet TermMatch) :=
  (TermFilter.ofClause c).map fun filter => SortedSet.ofElements (index.matchesOf c filter)

end InvertedIndex

end FullText
