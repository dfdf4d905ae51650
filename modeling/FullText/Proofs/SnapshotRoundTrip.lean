import FullText.Proofs.BuilderRuns
import FullText.Proofs.BuiltConsistency
import FullText.Proofs.ByteCodecs

/-!
# Snapshots read back

An index that is built, or that is read from a JSON text, is written to a snapshot and read back
without any change, in each of the three forms: a JSON text, an indented JSON text, and bytes. Such
an index passes the check for consistency and holds finite numbers only, and this is all that
reading back asks for. Lengths are written with eight bytes, which is enough for whatever fits into
memory.

## Main definitions

* `Index.Obtained` : the indexes that are built or read from a JSON text.

## Main results

* `Index.Obtained.storable` : such an index is consistent and holds finite numbers only.
* `Index.snapshot_roundTrip` : such an index is read back from its snapshots.
-/

namespace FullText

namespace Index

/-- The indexes that are obtained with a pipeline: built from the documents of a builder, or read
from a JSON text. -/
inductive Obtained (pipeline : Pipeline) : Index → Prop
  /-- An index that a builder makes of the documents it has accepted. -/
  | built {config b index} (hreached : IndexBuilder.Reached config pipeline b)
      (hbuild : b.build = .ok index) : Obtained pipeline index
  /-- An index that is read from a JSON text. -/
  | read {text index} (hread : ofText text pipeline = .ok index) : Obtained pipeline index

/-- What reading an index back asks for. -/
structure Storable (index : Index) : Prop where
  /-- The check finds nothing wrong. -/
  consistent : index.inverted.fault? = none
  /-- All numbers are finite. -/
  finite : index.inverted.Finite

theorem restore_eq_ok_iff {s : Snapshot} {pipeline : Pipeline} {index : Index} :
    s.restore pipeline = .ok index ↔ pipeline.signature = s.signature ∧
      s.inverted.fault? = none ∧ index = ⟨s.inverted, pipeline⟩ := by
  rw [Snapshot.restore]
  by_cases hsignature : pipeline.signature = s.signature
  · rw [if_neg (fun hne => hne hsignature)]
    cases s.inverted.fault? with
    | some e => simp
    | none => simp [hsignature, eq_comm]
  · simp [hsignature]

theorem restore_ofIndex {index : Index} (h : index.inverted.fault? = none) :
    (Snapshot.ofIndex index).restore index.pipeline = .ok index :=
  restore_eq_ok_iff.2 ⟨rfl, h, rfl⟩

/-- An index is read back from its JSON text. -/
theorem ofText_toText {index : Index} (h : index.Storable) :
    ofText index.toText index.pipeline = .ok index := by
  rw [ofText, toText, Snapshot.parse?_compact h.finite]
  exact restore_ofIndex h.consistent

/-- An index is read back from its indented JSON text. -/
theorem ofText_toIndentedText {index : Index} (h : index.Storable) :
    ofText index.toIndentedText index.pipeline = .ok index := by
  rw [ofText, toIndentedText, Snapshot.parse?_pretty h.finite]
  exact restore_ofIndex h.consistent

/-- An index is read back from its bytes, whatever follows them. -/
theorem ofBytes_toBytes {index : Index} (h : index.inverted.fault? = none)
    (hmemory : index.toBytes.length < UInt64.size) (rest : Bytes) :
    ofBytes (index.toBytes ++ rest) index.pipeline = .ok index := by
  rw [ofBytes, toBytes, Snapshot.codec.reads _ _ hmemory]
  exact restore_ofIndex h

/-! ### Indexes that are obtained -/

theorem length_invertedBytes_le (index : Index) :
    (Snapshot.invertedBytes index.inverted).length ≤ index.toBytes.length := by
  rw [toBytes, Snapshot.toBytes, List.length_append, show (Snapshot.ofIndex index).inverted =
    index.inverted from rfl]
  omega

theorem size_lengths_le (index : Index) {name : String} {f : FieldIndex}
    (hf : index.inverted.field? name = some f) : f.lengths.size ≤ index.toBytes.length := by
  have hmem : (name, f) ∈ index.inverted.fields.entries := SortedMap.get?_eq_some_iff.1 hf
  have hlengths := Snapshot.size_le_length_mapBytes Bytes.uint32Codec f.lengths
  have hfield : (Snapshot.mapBytes Bytes.ofUInt32 f.lengths).length ≤
      (Snapshot.fieldIndexBytes f).length := by
    rw [Snapshot.fieldIndexBytes, List.length_append, List.length_append]
    omega
  have hfields := Snapshot.length_le_length_mapBytes Snapshot.fieldIndexBytes hmem
  have hinverted : (Snapshot.mapBytes Snapshot.fieldIndexBytes index.inverted.fields).length ≤
      (Snapshot.invertedBytes index.inverted).length := by
    rw [Snapshot.invertedBytes, List.length_append]
    omega
  exact (hlengths.trans hfield).trans <| (hfields.trans hinverted).trans <|
    length_invertedBytes_le index

section Built

variable {config : Config} {pipeline : Pipeline} {b : IndexBuilder}

theorem eq_of_build (hreached : IndexBuilder.Reached config pipeline b) {index : Index}
    (hbuild : b.build = .ok index) :
    config.Usable ∧ index = ⟨.build config pipeline b.documents, pipeline⟩ := by
  have hsound := hreached.sound
  rw [IndexBuilder.build, hsound.config, hsound.pipeline] at hbuild
  cases hvalid : config.validate with
  | error e =>
    rw [hvalid] at hbuild
    cases hbuild
  | ok u =>
    rw [hvalid] at hbuild
    exact ⟨Config.validate_eq_ok_iff.1 hvalid, (Except.ok.inj hbuild).symm⟩

/-- An index that fits into memory is built from documents that can be counted. -/
theorem length_documents_lt (hconfig : config.Usable) {documents : List Document}
    (hnodup : (documents.map (·.reference)).Nodup)
    (hmemory :
      (Index.mk (.build config pipeline documents) pipeline).toBytes.length < UInt64.size) :
    documents.length < UInt64.size := by
  obtain ⟨name, f, hf, hsize⟩ := InvertedIndex.exists_size_lengths_eq hconfig hnodup pipeline
  have hle := size_lengths_le ⟨.build config pipeline documents, pipeline⟩ hf
  omega

end Built

theorem Obtained.pipeline_eq {pipeline : Pipeline} {index : Index} (h : Obtained pipeline index) :
    index.pipeline = pipeline := by
  cases h with
  | built hreached hbuild =>
    obtain ⟨-, rfl⟩ := eq_of_build hreached hbuild
    rfl
  | read hread =>
    rw [ofText] at hread
    split at hread
    · obtain ⟨-, -, rfl⟩ := restore_eq_ok_iff.1 hread
      rfl
    · cases hread

/-- An index that is built or read from a JSON text is consistent and holds finite numbers only. -/
theorem Obtained.storable {pipeline : Pipeline} {index : Index} (h : Obtained pipeline index)
    (hmemory : index.toBytes.length < UInt64.size) : index.Storable := by
  cases h with
  | built hreached hbuild =>
    obtain ⟨hconfig, rfl⟩ := eq_of_build hreached hbuild
    have hnodup := hreached.sound.nodup
    have hcount := length_documents_lt hconfig hnodup hmemory
    exact ⟨InvertedIndex.fault?_build hconfig hnodup hcount,
      InvertedIndex.finite_build hconfig hnodup hcount⟩
  | read hread =>
    rw [ofText] at hread
    split at hread
    · next s hs =>
      obtain ⟨-, hfault, rfl⟩ := restore_eq_ok_iff.1 hread
      exact ⟨hfault, Snapshot.finite_of_parse? hs⟩
    · cases hread

/-- **Snapshots lose nothing.** An index that is built, or that is read from a JSON text, passes the
check for consistency and is read back as it is from each of its snapshots, with the pipeline that
it was obtained with. The only condition is that its bytes can be counted with 64 bits. -/
theorem snapshot_roundTrip {pipeline : Pipeline} {index : Index} (h : Obtained pipeline index)
    (hmemory : index.toBytes.length < UInt64.size) :
    index.inverted.check = .ok () ∧
      ofText index.toText pipeline = .ok index ∧
      ofText index.toIndentedText pipeline = .ok index ∧
      ofBytes index.toBytes pipeline = .ok index := by
  have hstorable := h.storable hmemory
  obtain rfl := h.pipeline_eq
  have hbytes := ofBytes_toBytes hstorable.consistent hmemory []
  rw [List.append_nil] at hbytes
  refine ⟨?_, ofText_toText hstorable, ofText_toIndentedText hstorable, hbytes⟩
  rw [InvertedIndex.check, hstorable.consistent]

theorem snapshot_roundTrip_sample :
    ∃ index, Index.build Sample.config .english Sample.documents = .ok index ∧
      index.inverted.check = .ok () ∧
      ofText index.toText .english = .ok index ∧
      ofText index.toIndentedText .english = .ok index ∧
      ofBytes index.toBytes .english = .ok index := by
  have hreached : IndexBuilder.Reached Sample.config .english
      ((IndexBuilder.new Sample.config .english).addAll Sample.documents).1 :=
    IndexBuilder.Reached.new.addAll Sample.documents
  have hobtained : Obtained .english ⟨.build Sample.config .english Sample.documents, .english⟩ :=
    .built hreached rfl
  refine ⟨_, rfl, snapshot_roundTrip hobtained ?_⟩
  decide +kernel

end Index

end FullText
