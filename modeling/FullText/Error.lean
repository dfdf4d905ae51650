import FullText.Json.Printer

/-!
# Errors

What can go wrong, by cause, and the wording of each cause. A query is refused together with the
fragment at fault. Texts and files that cannot be decoded at all are told apart only by their
format.

## Main definitions

* `QueryFault`, `ConfigFault`, `DocumentFault`, `SnapshotFault`, `StorageFault` : the causes.
* `Error` : a cause with its circumstances.
* `Error.message` : the wording.
-/

namespace FullText

/-! ### Causes -/

/-- Why a query clause is refused. -/
inductive QueryFault
  /-- There is no field name before the colon. -/
  | emptyFieldName
  /-- There is a second colon. -/
  | unexpectedColon
  /-- There is no term, or one of stars only. -/
  | emptyTerm
  /-- The edit distance is given twice. -/
  | repeatedDistance
  /-- The edit distance is not a number. -/
  | invalidDistance (text : String)
  /-- The edit distance has too many digits. -/
  | excessiveDistance (text : String)
  /-- The boost is given twice. -/
  | repeatedBoost
  /-- The boost is not a number. -/
  | invalidBoost (text : String)
  /-- The boost as written is zero. -/
  | zeroBoost (text : String)
  /-- The field is not indexed. -/
  | unknownField (name : String)
  /-- The boost is not finite or not positive. -/
  | boostOutOfRange (boost : Binary64)
  /-- A pattern has an edit distance. -/
  | distanceOnPattern
  deriving DecidableEq

/-- Why a configuration is refused. -/
inductive ConfigFault
  /-- The name of the reference field is empty. -/
  | emptyReferenceField
  /-- There are no fields. -/
  | noFields
  /-- The name of a field is empty. -/
  | emptyFieldName
  /-- The name of a field holds a colon or white space. -/
  | malformedFieldName (name : String)
  /-- Two fields have the same name. -/
  | repeatedField (name : String)
  /-- The boost of a field is not finite or not positive. -/
  | fieldBoost (name : String) (boost : Binary64)
  /-- The strength of length normalization is not between zero and one. -/
  | lengthNormalization (b : Binary64)
  deriving DecidableEq

/-- Why a document is refused. -/
inductive DocumentFault
  /-- The document is not an object. -/
  | notAnObject (value : Json)
  /-- The reference is neither a non-empty text nor a number. -/
  | malformedReference (field : String) (value : Json)
  /-- There is no reference. -/
  | missingReference (field : String)
  /-- The reference is empty. -/
  | emptyReference

/-- Why a snapshot is refused. -/
inductive SnapshotFault
  /-- The snapshot was built with another pipeline. -/
  | pipelineMismatch (recorded given : List String)
  /-- There are more or fewer field indexes than configured fields. -/
  | fieldCount (held declared : Nat)
  /-- A configured field has no index. -/
  | missingField (field : String)
  /-- The recorded lengths are more or fewer than the documents. -/
  | lengthCount (field : String) (lengths documents : Nat)
  /-- The total length is not the sum of the recorded lengths. -/
  | totalLength (field : String) (total : Nat)
  /-- A term is listed for more documents than there are. -/
  | excessDocuments (term field : String)
  /-- A term is listed for a document without a recorded length. -/
  | unknownDocument (term field reference : String)
  deriving DecidableEq

/-- Why a file cannot be read or written. -/
inductive StorageFault
  /-- There is no such file, or the folder for it is missing. -/
  | notFound
  /-- The path names a folder. -/
  | isDirectory
  /-- A part of the path that should be a folder is a file. -/
  | notDirectory
  /-- The path or a name in it has too many bytes. -/
  | nameTooLong
  /-- The path has a null character. -/
  | nullCharacter
  /-- A text file holds bytes that are not UTF-8. -/
  | notText
  deriving DecidableEq

/-- Why a pattern is refused. -/
inductive PatternFault
  /-- The pattern is not well formed. -/
  | malformed
  /-- The pattern is too large. -/
  | tooLarge
  deriving DecidableEq

/-- An error: its cause and circumstances. -/
inductive Error
  /-- A query clause is malformed or does not fit the configuration. -/
  | query (fault : QueryFault) (fragment : String)
  /-- Two documents have the same reference. -/
  | duplicateReference (reference : String)
  /-- A document has no text for a required field. -/
  | missingField (reference field : String)
  /-- A document is malformed. -/
  | document (fault : DocumentFault)
  /-- The configuration cannot be used. -/
  | config (fault : ConfigFault)
  /-- A pattern cannot be used. -/
  | pattern (fault : PatternFault)
  /-- A snapshot does not make up an index. -/
  | snapshot (fault : SnapshotFault)
  /-- A file cannot be read or written. -/
  | storage (fault : StorageFault)
  /-- A text is not the JSON form of what it should be. -/
  | json
  /-- Bytes are not the binary form of what they should be. -/
  | binary

/-! ### Wording -/

/-- The wording of a cause. -/
def QueryFault.message : QueryFault → String
  | emptyFieldName => "empty field name"
  | unexpectedColon => "unexpected `:` in term"
  | emptyTerm => "empty term"
  | repeatedDistance => "edit distance given more than once"
  | invalidDistance text => s!"invalid edit distance `{text}`"
  | excessiveDistance text =>
    s!"invalid edit distance `{text}`: number too large to fit in target type"
  | repeatedBoost => "boost given more than once"
  | invalidBoost text => s!"invalid boost `{text}`"
  | zeroBoost text => s!"boost must be positive, got `{text}`"
  | unknownField name => s!"unknown field `{name}`"
  | boostOutOfRange boost => "boost must be a positive number, got " ++ boost.write .plain
  | distanceOnPattern => "wildcards cannot be combined with an edit distance"

/-- The wording of a cause. -/
def ConfigFault.message : ConfigFault → String
  | emptyReferenceField => "reference field name is empty"
  | noFields => "at least one field is required"
  | emptyFieldName => "field name is empty"
  | malformedFieldName name => s!"field name `{name}` may not contain `:` or whitespace"
  | repeatedField name => s!"field `{name}` is declared twice"
  | fieldBoost name boost => s!"field `{name}` has invalid boost " ++ boost.write .plain
  | lengthNormalization b => "length normalization must be within [0, 1], got " ++ b.write .plain

/-- The wording of a cause. -/
def DocumentFault.message : DocumentFault → String
  | notAnObject value => "expected a JSON object, got " ++ value.compact
  | malformedReference field value =>
    s!"reference `{field}` must be a non-empty string or number, got " ++ value.compact
  | missingReference field => s!"missing reference field `{field}`"
  | emptyReference => "document reference is empty"

/-- The wording of a cause. -/
def SnapshotFault.message : SnapshotFault → String
  | pipelineMismatch recorded given =>
    let recorded := ", ".intercalate recorded
    let given := ", ".intercalate given
    s!"pipeline mismatch: snapshot was built with [{recorded}], got [{given}]"
  | fieldCount held declared =>
    s!"index holds {held} fields but its configuration declares {declared}"
  | missingField field => s!"configured field `{field}` has no index"
  | lengthCount field lengths documents =>
    s!"field `{field}` records {lengths} lengths for {documents} documents"
  | totalLength field total =>
    s!"field `{field}` total length {total} does not match recorded lengths"
  | excessDocuments term field =>
    s!"term `{term}` in field `{field}` lists more documents than the index holds"
  | unknownDocument term field reference =>
    s!"term `{term}` in field `{field}` refers to unknown document `{reference}`"

/-- The wording of a cause. -/
def StorageFault.message : StorageFault → String
  | notFound => "No such file or directory (os error 2)"
  | notDirectory => "Not a directory (os error 20)"
  | isDirectory => "Is a directory (os error 21)"
  | nameTooLong => "File name too long (os error 36)"
  | nullCharacter => "file name contained an unexpected NUL byte"
  | notText => "stream did not contain valid UTF-8"

/-- The wording of a cause. -/
def PatternFault.message : PatternFault → String
  | malformed => "the pattern is malformed"
  | tooLarge => "the pattern is too large"

/-- The wording of an error. -/
def Error.message : Error → String
  | query fault fragment =>
    let message := fault.message
    s!"Query parse error: {message} (at `{fragment}`)"
  | duplicateReference reference => s!"Duplicate document reference: {reference}"
  | missingField reference field => s!"Document `{reference}` is missing required field `{field}`"
  | document fault => "Invalid document: " ++ fault.message
  | config fault => "Invalid configuration: " ++ fault.message
  | pattern fault => "Analysis error: " ++ fault.message
  | snapshot fault => "Snapshot error: " ++ fault.message
  | storage fault => "I/O error: " ++ fault.message
  | json => "JSON error: the text does not have the expected form"
  | binary => "Binary encoding error: the bytes do not have the expected form"

end FullText
