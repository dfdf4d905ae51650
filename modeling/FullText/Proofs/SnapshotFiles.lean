import FullText.Proofs.SnapshotRoundTrip
import FullText.Snapshot.File

/-!
# Snapshot files read back

The format of a snapshot file is told by its name when it is written, and again when it is read. In
either format a file is at least as long as each of the maps in it has entries. So a file whose
length is a number of 64 bits holds no more documents than can be counted, and an index that is
built is read back from it as it is.

## Main results

* `Json.length_members_le`, `Json.length_value_le` : an object is at least as long as it has
  members, and as long as each of their values.
* `Index.size_lengths_le_fileContents` : a file is at least as long as a field has documents.
* `Index.storable_of_build` : an index that is built and fits into a file can be read back.
* `Snapshot.ofFileContents_fileContents` : a snapshot is read back from its file.
-/

namespace FullText

/-! ### The length of JSON texts -/

namespace Json

theorem compactChars_object (members : List (String × Json)) :
    (object members).compactChars = Layout.enclose '{' '}' [] []
      (members.map fun e => quote e.1 ++ ':' :: e.2.compactChars) := by
  have hmembers : Layout.compact.memberTexts 1 members =
      members.map fun e => quote e.1 ++ ':' :: e.2.compactChars := by
    induction members with
    | nil => rfl
    | cons e members ih =>
      rw [Layout.memberTexts, ih, List.map_cons, compactChars_eq 1 e.2]
      rfl
  rw [compactChars_eq 0, Layout.text, ← hmembers]
  rfl

/-- An object is at least as long as it has members. -/
theorem length_members_le (members : List (String × Json)) :
    members.length ≤ (object members).compactChars.length := by
  rw [compactChars_object]
  cases members with
  | nil => exact Nat.zero_le _
  | cons e members =>
    have hle := length_le_flatMap [] (members.map fun e => quote e.1 ++ ':' :: e.2.compactChars)
    rw [List.length_map] at hle
    simp only [List.map_cons, Layout.enclose, List.length_cons, List.length_append]
    omega

/-- An object is at least as long as the value of each of its members. -/
theorem length_value_le {members : List (String × Json)} {e : String × Json}
    (he : e ∈ members) : e.2.compactChars.length ≤ (object members).compactChars.length := by
  have hmem : quote e.1 ++ ':' :: e.2.compactChars ∈
      members.map fun e => quote e.1 ++ ':' :: e.2.compactChars := List.mem_map.2 ⟨e, he, rfl⟩
  have hpart : (quote e.1 ++ ':' :: e.2.compactChars).length + 1 <
      (Layout.enclose '{' '}' [] [] _).length := length_lt_enclose hmem
  rw [← compactChars_object, List.length_append, List.length_cons] at hpart
  omega

theorem length_le_utf8Len (cs : List Char) : cs.length ≤ String.utf8Len cs := by
  induction cs with
  | nil => exact Nat.le_refl 0
  | cons c cs ih =>
    have hpos := c.utf8Size_pos
    rw [List.length_cons, String.utf8Len_cons]
    omega

/-- A text has at least as many bytes as characters. -/
theorem length_compactChars_le_toUTF8 (v : Json) :
    v.compactChars.length ≤ v.compact.toUTF8.toList.length := by
  rw [Bytes.length_toUTF8, compact, String.utf8ByteSize_ofList]
  exact length_le_utf8Len v.compactChars

end Json

namespace Index

/-! ### The length of snapshot files -/

theorem size_lengths_le_toText (index : Index) {name : String} {f : FieldIndex}
    (hf : index.inverted.field? name = some f) :
    f.lengths.size ≤ index.toText.toUTF8.toList.length := by
  have hmem : (name, f) ∈ index.inverted.fields.entries := SortedMap.get?_eq_some_iff.1 hf
  have hlengths : f.lengths.size ≤
      (Json.ofMap (fun n : UInt32 => .ofNat n.toNat) f.lengths).compactChars.length := by
    have hmembers := Json.length_members_le
      (f.lengths.entries.map fun e => (e.1, Json.ofNat e.2.toNat))
    rwa [List.length_map] at hmembers
  have hfield : (Json.ofMap (fun n : UInt32 => .ofNat n.toNat) f.lengths).compactChars.length ≤
      f.toJson.compactChars.length :=
    Json.length_value_le (e := ("lengths", _)) (.tail _ (.head _))
  have hfields : f.toJson.compactChars.length ≤
      (Json.ofMap FieldIndex.toJson index.inverted.fields).compactChars.length :=
    Json.length_value_le
      (List.mem_map_of_mem (f := fun e : String × FieldIndex => (e.1, e.2.toJson)) hmem)
  have hinverted : (Json.ofMap FieldIndex.toJson index.inverted.fields).compactChars.length ≤
      index.inverted.toJson.compactChars.length :=
    Json.length_value_le (e := ("fields", _)) (.tail _ (.tail _ (.head _)))
  have hsnapshot : index.inverted.toJson.compactChars.length ≤
      (Snapshot.ofIndex index).toJson.compactChars.length :=
    Json.length_value_le (e := ("index", _)) (.tail _ (.tail _ (.tail _ (.head _))))
  calc f.lengths.size
      ≤ (Snapshot.ofIndex index).toJson.compactChars.length :=
        hlengths.trans (hfield.trans (hfields.trans (hinverted.trans hsnapshot)))
    _ ≤ index.toText.toUTF8.toList.length := Json.length_compactChars_le_toUTF8 _

/-- A snapshot file is at least as long as a field of the index has documents. -/
theorem size_lengths_le_fileContents (path : String) (index : Index) {name : String}
    {f : FieldIndex} (hf : index.inverted.field? name = some f) :
    f.lengths.size ≤ (index.fileContents path).length := by
  rw [fileContents]
  cases SnapshotFormat.ofPath path with
  | json => exact size_lengths_le_toText index hf
  | binary => exact size_lengths_le index hf

/-- An index that is built and fits into a file is consistent and holds finite numbers only. -/
theorem storable_of_build {config : Config} {pipeline : Pipeline} {documents : List Document}
    {index : Index} (hbuild : Index.build config pipeline documents = .ok index) {path : String}
    (hmemory : (index.fileContents path).length < UInt64.size) : index.Storable := by
  obtain ⟨haccepted, hvalid, rfl⟩ := build_eq_ok_iff.1 hbuild
  have hconfig := Config.validate_eq_ok_iff.1 hvalid
  have hnodup := IndexBuilder.nodup_references haccepted
  obtain ⟨name, f, hf, hsize⟩ := InvertedIndex.exists_size_lengths_eq hconfig hnodup pipeline
  have hle := size_lengths_le_fileContents path ⟨.build config pipeline documents, pipeline⟩ hf
  have hcount : documents.length < UInt64.size := by omega
  exact ⟨InvertedIndex.fault?_build hconfig hnodup hcount,
    InvertedIndex.finite_build hconfig hnodup hcount⟩

end Index

/-- **A snapshot is read back from its file,** in the format that the name of the file tells. -/
theorem Snapshot.ofFileContents_fileContents {index : Index} (h : index.inverted.Finite)
    {path : String} (hmemory : (index.fileContents path).length < UInt64.size) :
    Snapshot.ofFileContents path (index.fileContents path) = .ok (.ofIndex index) := by
  rw [Index.fileContents] at hmemory ⊢
  rw [ofFileContents]
  cases hformat : SnapshotFormat.ofPath path with
  | json =>
    have hparse : parse? index.toText = some (ofIndex index) := parse?_compact h
    simp only [Bytes.toByteArray_toList, Bytes.fromUTF8?_toUTF8, hparse]
  | binary =>
    rw [hformat] at hmemory
    have hread : read ((ofIndex index).toBytes ++ []) = some (ofIndex index, []) :=
      codec.reads (ofIndex index) [] hmemory
    rw [List.append_nil] at hread
    simp only [Index.toBytes, hread]

end FullText
