import FullText.Snapshot

/-!
# Snapshots as bytes

The binary form of a snapshot holds the same values as the JSON form, in the same order, without
names. Numbers keep all their bits. What follows a complete snapshot is ignored.

## Main definitions

* `Snapshot.toBytes`, `Snapshot.read` : the binary form.
* `Index.toBytes`, `Index.ofBytes` : writing and reading an index.
-/

namespace FullText

open Bytes (Reader ofUInt32 ofUInt64 ofBool ofString ofList ofEntry readUInt32 readUInt64 readBool
  readString readList readEntry)

namespace Snapshot

/-! ### Writing -/

/-- The bytes of a number. -/
def numberBytes (x : Binary64) : Bytes := ofUInt64 x.bits

/-- The bytes of a sorted map. -/
def mapBytes {β : Type} (value : β → Bytes) (m : SortedMap String β) : Bytes :=
  ofList (ofEntry value) m.entries

/-- The bytes of the configuration of a field. -/
def fieldConfigBytes (f : FieldConfig) : Bytes :=
  ofString f.name ++ numberBytes f.boost ++ ofBool f.required

/-- The bytes of a configuration. -/
def configBytes (c : Config) : Bytes :=
  ofString c.referenceField ++ ofList fieldConfigBytes c.fields ++ numberBytes c.lengthNormalization

/-- The bytes of occurrences. -/
def occurrencesBytes (o : Occurrences) : Bytes :=
  ofUInt32 o.frequency ++ ofList ofUInt32 o.positions

/-- The bytes of a posting. -/
def postingBytes (p : Posting) : Bytes := numberBytes p.idf ++ mapBytes occurrencesBytes p.documents

/-- The bytes of a field index. -/
def fieldIndexBytes (f : FieldIndex) : Bytes :=
  mapBytes postingBytes f.terms ++ mapBytes ofUInt32 f.lengths ++ ofUInt64 f.totalLength

/-- The bytes of an inverted index. -/
def invertedBytes (i : InvertedIndex) : Bytes :=
  configBytes i.config ++ ofUInt64 i.documentCount ++ mapBytes fieldIndexBytes i.fields

/-- The bytes of a snapshot. -/
def toBytes (s : Snapshot) : Bytes :=
  ofString s.version ++ ofList ofString s.filterNames ++ ofList ofString s.signature ++
    invertedBytes s.inverted

/-! ### Reading -/

/-- Reads a number. -/
def readNumber : Reader Binary64 := fun bytes => do
  let (bits, rest) ← readUInt64 bytes
  return (⟨bits⟩, rest)

/-- Reads a sorted map. The entries may come in any order; of two entries with one key the later
one counts. -/
def readMap {β : Type} (value : Reader β) : Reader (SortedMap String β) := fun bytes => do
  let (entries, rest) ← readList (readEntry value) bytes
  return (.ofList entries, rest)

/-- Reads the configuration of a field. -/
def readFieldConfig : Reader FieldConfig := fun bytes => do
  let (name, rest) ← readString bytes
  let (boost, rest) ← readNumber rest
  let (required, rest) ← readBool rest
  return (⟨name, boost, required⟩, rest)

/-- Reads a configuration. -/
def readConfig : Reader Config := fun bytes => do
  let (referenceField, rest) ← readString bytes
  let (fields, rest) ← readList readFieldConfig rest
  let (lengthNormalization, rest) ← readNumber rest
  return (⟨referenceField, fields, lengthNormalization⟩, rest)

/-- Reads occurrences. -/
def readOccurrences : Reader Occurrences := fun bytes => do
  let (frequency, rest) ← readUInt32 bytes
  let (positions, rest) ← readList readUInt32 rest
  return (⟨frequency, positions⟩, rest)

/-- Reads a posting. -/
def readPosting : Reader Posting := fun bytes => do
  let (idf, rest) ← readNumber bytes
  let (documents, rest) ← readMap readOccurrences rest
  return (⟨idf, documents⟩, rest)

/-- Reads a field index. -/
def readFieldIndex : Reader FieldIndex := fun bytes => do
  let (terms, rest) ← readMap readPosting bytes
  let (lengths, rest) ← readMap readUInt32 rest
  let (totalLength, rest) ← readUInt64 rest
  return (⟨terms, lengths, totalLength⟩, rest)

/-- Reads an inverted index. -/
def readInverted : Reader InvertedIndex := fun bytes => do
  let (config, rest) ← readConfig bytes
  let (documentCount, rest) ← readUInt64 rest
  let (fields, rest) ← readMap readFieldIndex rest
  return (⟨config, documentCount, fields⟩, rest)

/-- Reads a snapshot. -/
def read : Reader Snapshot := fun bytes => do
  let (version, rest) ← readString bytes
  let (filterNames, rest) ← readList readString rest
  let (signature, rest) ← readList readString rest
  let (inverted, rest) ← readInverted rest
  return (⟨version, filterNames, signature, inverted⟩, rest)

end Snapshot

namespace Index

/-- The bytes of an index. -/
def toBytes (index : Index) : Bytes := (Snapshot.ofIndex index).toBytes

/-- Reads an index from bytes. -/
def ofBytes (bytes : Bytes) (pipeline : Pipeline) : Except Error Index :=
  match Snapshot.read bytes with
  | some (s, _) => s.restore pipeline
  | none => .error .binary

end Index

end FullText
