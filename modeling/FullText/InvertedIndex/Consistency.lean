import FullText.InvertedIndex

/-!
# Consistency of an index

An index that is read from outside need not be one that can be built. It is checked before it is
used: its configuration is usable, its fields are the configured ones, every field records a length
for every document, the total length is the sum of the lengths, and no posting lists more
documents than there are or a document without a recorded length. Fields are checked in the order
of the configuration, terms and documents in ascending order, and the first fault is reported.

## Main definitions

* `InvertedIndex.fault?` : the first fault.
* `InvertedIndex.check` : accepts consistent indexes.
-/

namespace FullText.InvertedIndex

/-- The sum of recorded lengths. -/
def lengthSum (f : FieldIndex) : UInt64 :=
  f.lengths.values.foldl (fun total n => total + n.toUInt64) 0

/-- What is wrong with the posting of a term. -/
def postingFault? (documentCount : UInt64) (field : String) (f : FieldIndex) (term : String)
    (p : Posting) : Option SnapshotFault :=
  if documentCount.toNat < p.documentFrequency then some (.excessDocuments term field)
  else (p.documents.keys.find? fun r => !f.lengths.contains r).map (.unknownDocument term field)

/-- The first thing wrong with the index of a field. -/
def fieldFault? (documentCount : UInt64) (name : String) (f : FieldIndex) : Option SnapshotFault :=
  if f.lengths.size ≠ documentCount.toNat then
    some (.lengthCount name f.lengths.size documentCount.toNat)
  else if lengthSum f ≠ f.totalLength then some (.totalLength name f.totalLength.toNat)
  else f.terms.entries.findSome? fun (term, p) => postingFault? documentCount name f term p

/-- The first thing wrong with the field indexes. -/
def fieldsFault? (index : InvertedIndex) : Option SnapshotFault :=
  if index.fields.size ≠ index.config.fields.length then
    some (.fieldCount index.fields.size index.config.fields.length)
  else index.config.fieldNames.findSome? fun name =>
    match index.field? name with
    | none => some (.missingField name)
    | some f => fieldFault? index.documentCount name f

/-- The first thing wrong with an index: its configuration comes first. -/
def fault? (index : InvertedIndex) : Option Error :=
  match index.config.fault? with
  | some fault => some (.config fault)
  | none => index.fieldsFault?.map .snapshot

/-- Accepts the indexes that can be used. -/
def check (index : InvertedIndex) : Except Error Unit :=
  match index.fault? with
  | some e => .error e
  | none => .ok ()

end FullText.InvertedIndex
