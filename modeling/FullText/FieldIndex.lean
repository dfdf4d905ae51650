import FullText.Posting
import FullText.Token

/-!
# The index of a field

The index of one field: the vocabulary of the field with the posting of each term, and the length
of the field in each document, counted in tokens. The vocabulary is sorted, so the terms with a
common beginning are neighbours.

## Main definitions

* `FieldIndex` : the index of one field.
* `FieldIndex.addDocument` : records the tokens of a document.
* `FieldIndex.weigh` : computes the inverse document frequencies.
* `FieldIndex.termsFrom` : the terms with a common beginning.
* `FieldIndex.averageLength` : the mean length of the field.
-/

namespace FullText

/-- The index of one field. -/
structure FieldIndex where
  /-- The postings, by term. -/
  terms : SortedMap String Posting
  /-- The number of tokens, by document. -/
  lengths : SortedMap String UInt32
  /-- The sum of all lengths. -/
  totalLength : UInt64
  deriving DecidableEq

namespace FieldIndex

/-- The index of a field of no documents. -/
def empty : FieldIndex := ⟨.empty, .empty, 0⟩

/-- The vocabulary after the tokens of a document. -/
def addTokens (reference : String) (terms : SortedMap String Posting) (tokens : List Token) :
    SortedMap String Posting :=
  tokens.foldl (fun terms t => terms.upsert t.text fun present =>
    (present.getD .empty).add reference (UInt32.ofNat t.position)) terms

/-- Records the tokens of a document. -/
def addDocument (f : FieldIndex) (reference : String) (tokens : List Token) : FieldIndex :=
  let length := UInt32.ofNat tokens.length
  { terms := addTokens reference f.terms tokens
    lengths := f.lengths.insert reference length
    totalLength := f.totalLength + length.toUInt64 }

/-- Computes the inverse document frequency of every term in an index of `n` documents. -/
def weigh (n : Nat) (f : FieldIndex) : FieldIndex :=
  { f with terms := f.terms.mapValues fun p =>
      { p with idf := inverseDocumentFrequency p.documentFrequency n } }

/-- The posting of a term. -/
def posting? (f : FieldIndex) (term : String) : Option Posting := f.terms.get? term

/-- The vocabulary, in ascending order. -/
def vocabulary (f : FieldIndex) : List String := f.terms.keys

/-- Whether a text starts with another one. -/
def startsWith (text head : String) : Bool := head.toList.isPrefixOf text.toList

/-- The terms that start with a text. They are neighbours in the vocabulary, and the first of them
is the first term not less than the text. -/
def termsFrom (f : FieldIndex) (head : String) : List String :=
  (f.vocabulary.dropWhile fun t => decide (t < head)).takeWhile fun t => startsWith t head

/-- The number of terms. -/
def vocabularySize (f : FieldIndex) : Nat := f.terms.size

/-- The length of the field in a document. -/
def length? (f : FieldIndex) (reference : String) : Option UInt32 := f.lengths.get? reference

/-- The mean length of the field, zero if there are no documents. -/
def averageLength (f : FieldIndex) : Binary64 :=
  if f.lengths.isEmpty then .zero
  else Binary64.ofNat f.totalLength.toNat / Binary64.ofNat f.lengths.size

/-- Whether two indexes are equal as numbers and lists. A NaN equals nothing. -/
def same (f g : FieldIndex) : Bool :=
  f.terms.keys = g.terms.keys && (f.terms.values.zip g.terms.values).all (fun (p, q) => p.same q) &&
    f.lengths = g.lengths && f.totalLength = g.totalLength

/-- The JSON form. -/
def toJson (f : FieldIndex) : Json :=
  .object [
    ("terms", .ofMap Posting.toJson f.terms),
    ("lengths", .ofMap (fun n : UInt32 => .ofNat n.toNat) f.lengths),
    ("total_length", .ofNat f.totalLength.toNat)]

open Json.Raw (required? record? uint32? uint64? map?)

/-- Reads the JSON form. -/
def ofJson? (r : Json.Raw) : Option FieldIndex := do
  match ← record? ["terms", "lengths", "total_length"] r with
  | [terms, lengths, totalLength] =>
    return ⟨← required? (map? Posting.ofJson?) terms, ← required? (map? uint32?) lengths,
      ← required? uint64? totalLength⟩
  | _ => none

end FieldIndex

end FullText
