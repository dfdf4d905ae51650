import FullText.Binary64.Nearest
import FullText.Json.Interpretation
import FullText.SortedMap

/-!
# Postings

The posting of a term tells in which documents a field holds the term, how often, and at which
positions. It also holds the inverse document frequency of the term, which is computed once, when
the index is complete.

## Main definitions

* `Occurrences` : how often and where a document has a term.
* `Posting` : the occurrences of a term in all documents.
* `inverseDocumentFrequency`, `frequencyWeight` : the two weights of a term.
-/

namespace FullText

/-- How often and where a field of a document has a term. -/
structure Occurrences where
  /-- The number of occurrences. -/
  frequency : UInt32
  /-- The positions, in the order of the text. -/
  positions : List UInt32
  deriving DecidableEq

namespace Occurrences

/-- A single occurrence. -/
def single (position : UInt32) : Occurrences := ⟨1, [position]⟩

/-- The occurrences with another one after them. -/
def add (o : Occurrences) (position : UInt32) : Occurrences :=
  ⟨UInt32.ofNat (o.positions.length + 1), o.positions ++ [position]⟩

/-- The JSON form. -/
def toJson (o : Occurrences) : Json :=
  .object [
    ("frequency", .ofNat o.frequency.toNat),
    ("positions", .array (o.positions.map fun p => .ofNat p.toNat))]

open Json.Raw (required? record? uint32? list?)

/-- Reads the JSON form. -/
def ofJson? (r : Json.Raw) : Option Occurrences := do
  match ← record? ["frequency", "positions"] r with
  | [frequency, positions] =>
    return ⟨← required? uint32? frequency, ← required? (list? uint32?) positions⟩
  | _ => none

end Occurrences

/-- The occurrences of a term in the documents of an index. -/
structure Posting where
  /-- The inverse document frequency of the term. -/
  idf : Binary64
  /-- The occurrences, by document. -/
  documents : SortedMap String Occurrences
  deriving DecidableEq

namespace Posting

/-- The posting of a term without occurrences. -/
def empty : Posting := ⟨.zero, .empty⟩

/-- Records an occurrence of the term in a document. -/
def add (p : Posting) (reference : String) (position : UInt32) : Posting :=
  { p with documents := p.documents.upsert reference fun present =>
      match present with
      | some o => o.add position
      | none => .single position }

/-- The number of documents with the term. -/
def documentFrequency (p : Posting) : Nat := p.documents.size

/-- The occurrences of the term in a document. -/
def occurrences? (p : Posting) (reference : String) : Option Occurrences :=
  p.documents.get? reference

/-- Whether two postings are equal as numbers and lists. A NaN equals nothing. -/
def same (p q : Posting) : Bool := p.idf.same q.idf && p.documents = q.documents

/-- The JSON form. -/
def toJson (p : Posting) : Json :=
  .object [("idf", .number p.idf), ("documents", .ofMap Occurrences.toJson p.documents)]

open Json.Raw (required? record? binary64? map?)

/-- Reads the JSON form. -/
def ofJson? (r : Json.Raw) : Option Posting := do
  match ← record? ["idf", "documents"] r with
  | [idf, documents] =>
    return ⟨← required? binary64? idf, ← required? (map? Occurrences.ofJson?) documents⟩
  | _ => none

end Posting

/-! ### Weights -/

/-- The inverse document frequency of a term that `df` of `n` documents have:
`ln (1 + (n - df + 1/2) / (df + 1/2))`, or zero if that is not positive. -/
def inverseDocumentFrequency (df n : Nat) : Binary64 :=
  let df := Binary64.ofNat df
  (Binary64.one + (Binary64.ofNat n - df + Binary64.half) / (df + Binary64.half)).log.clipAtZero

/-- The weight of a frequency: `1 + ln f`, and zero for `f = 0`. -/
def frequencyWeight (f : UInt32) : Binary64 :=
  if f = 0 then .zero else .one + (Binary64.ofNat f.toNat).log

end FullText
