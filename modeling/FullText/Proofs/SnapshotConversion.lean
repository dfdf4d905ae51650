import FullText.Proofs.LoadedCounts

/-!
# Snapshots in the other format

An index that is loaded from bytes can be written as a JSON text. Bytes hold numbers of any kind, a
JSON text only finite ones: the others are written as `null`, which is not read as a number. The
check of an index that is loaded asks of the numbers in the configuration that they are finite, but
says nothing about the weights of terms. So the text is read back as the same index if all weights
are finite, and otherwise it is not read at all.

## Main definitions

* `InvertedIndex.WeightsFinite` : the weights of all terms are finite.

## Main results

* `Snapshot.weightsFinite_of_ofJson?_raw` : only finite weights are read back from a JSON form.
* `Index.text_of_bytes` : which indexes that are loaded from bytes are read back from their texts.
-/

namespace FullText

/-! ### What is read from a JSON form -/

namespace Json

theorem exists_of_mapM_eq_some {α β : Type} {f : α → Option β} {as : List α} {bs : List β}
    (h : as.mapM f = some bs) {a : α} (ha : a ∈ as) : ∃ b, f a = some b := by
  have hmem : f a ∈ bs.map some := map_eq_of_mapM h ▸ List.mem_map_of_mem ha
  obtain ⟨b, -, hb⟩ := List.mem_map.1 hmem
  exact ⟨b, hb.symm⟩

/-- If the object of a map is read, all its values are. -/
theorem exists_read_of_map?_raw {α β : Type} {read : Raw → Option α} {write : β → Json}
    {m : SortedMap String β} {m' : SortedMap String α}
    (h : (raw (.ofMap write m)).map? read = some m') {v : β} (hv : v ∈ m.values) :
    ∃ a, read (write v).raw = some a := by
  rw [ofMap, raw, rawMembers_eq, Raw.map?] at h
  obtain ⟨es, hes, -⟩ := Option.map_eq_some_iff.1 h
  obtain ⟨e, he, rfl⟩ := List.mem_map.1 hv
  obtain ⟨b, hb⟩ := exists_of_mapM_eq_some hes
    (List.mem_map_of_mem (List.mem_map_of_mem (f := fun e => (e.1, write e.2)) he))
  obtain ⟨cs, -, hb⟩ := Option.bind_eq_some_iff.1 hb
  obtain ⟨a, ha, -⟩ := Option.bind_eq_some_iff.1 hb
  exact ⟨a, ha⟩

/-- A number that is read back is finite. -/
theorem isFinite_of_binary64?_raw {x y : Binary64} (h : (raw (.number x)).binary64? = some y) :
    x.isFinite = true := by
  by_contra hx
  rw [raw, if_neg hx] at h
  cases h

end Json

open Json (raw record?_raw exists_read_of_map?_raw isFinite_of_binary64?_raw)

theorem of_bind_record? {β : Type} (members : List (String × Json))
    (hnames : (members.map (·.1)).Nodup) {f : List (Option Json.Raw) → Option β} {b : β}
    (h : (Json.Raw.record? (members.map (·.1)) (raw (.object members))).bind f = some b) :
    f (members.map fun e => some e.2.raw) = some b := by
  rwa [record?_raw members hnames, Option.bind_some] at h

theorem Posting.isFinite_of_ofJson?_raw {p q : Posting} (h : ofJson? p.toJson.raw = some q) :
    p.idf.isFinite = true := by
  rw [toJson, ofJson?] at h
  have hfields := of_bind_record? [("idf", .number p.idf),
    ("documents", .ofMap Occurrences.toJson p.documents)] (by simp) h
  obtain ⟨idf, hidf, -⟩ := Option.bind_eq_some_iff.1 hfields
  exact isFinite_of_binary64?_raw hidf

theorem FieldIndex.isFinite_of_ofJson?_raw {f g : FieldIndex} (h : ofJson? f.toJson.raw = some g) :
    ∀ p ∈ f.terms.values, p.idf.isFinite = true := by
  rw [toJson, ofJson?] at h
  have hfields := of_bind_record? [("terms", .ofMap Posting.toJson f.terms),
    ("lengths", .ofMap (fun n : UInt32 => .ofNat n.toNat) f.lengths),
    ("total_length", .ofNat f.totalLength.toNat)] (by simp) h
  obtain ⟨terms, hterms, -⟩ := Option.bind_eq_some_iff.1 hfields
  intro p hp
  obtain ⟨q, hq⟩ := exists_read_of_map?_raw hterms hp
  exact Posting.isFinite_of_ofJson?_raw hq

/-- The weights of all terms are finite. -/
def InvertedIndex.WeightsFinite (i : InvertedIndex) : Prop :=
  ∀ f ∈ i.fields.values, ∀ p ∈ f.terms.values, p.idf.isFinite = true

theorem InvertedIndex.weightsFinite_of_ofJson?_raw {i j : InvertedIndex}
    (h : ofJson? i.toJson.raw = some j) : i.WeightsFinite := by
  rw [toJson, ofJson?] at h
  have hfields := of_bind_record? [("config", i.config.toJson),
    ("document_count", .ofNat i.documentCount.toNat),
    ("fields", .ofMap FieldIndex.toJson i.fields)] (by simp) h
  obtain ⟨config, -, hcount⟩ := Option.bind_eq_some_iff.1 hfields
  obtain ⟨count, -, hmap⟩ := Option.bind_eq_some_iff.1 hcount
  obtain ⟨fields, hread, -⟩ := Option.bind_eq_some_iff.1 hmap
  intro f hf
  obtain ⟨g, hg⟩ := exists_read_of_map?_raw hread hf
  exact FieldIndex.isFinite_of_ofJson?_raw hg

/-- **Only finite weights are read back from the JSON form of a snapshot.** -/
theorem Snapshot.weightsFinite_of_ofJson?_raw {s t : Snapshot} (h : ofJson? s.toJson.raw = some t) :
    s.inverted.WeightsFinite := by
  rw [toJson, ofJson?] at h
  have hfields := of_bind_record? [("version", .string s.version),
    ("pipeline", .ofStrings s.filterNames), ("signature", .ofStrings s.signature),
    ("index", s.inverted.toJson)] (by simp) h
  obtain ⟨version, -, hnames⟩ := Option.bind_eq_some_iff.1 hfields
  obtain ⟨names, -, hsignature⟩ := Option.bind_eq_some_iff.1 hnames
  obtain ⟨signature, -, hinverted⟩ := Option.bind_eq_some_iff.1 hsignature
  obtain ⟨inverted, hread, -⟩ := Option.bind_eq_some_iff.1 hinverted
  exact InvertedIndex.weightsFinite_of_ofJson?_raw hread

theorem Snapshot.ofJson?_raw_eq_none {s : Snapshot} (h : ¬ s.inverted.WeightsFinite) :
    ofJson? s.toJson.raw = none :=
  Option.eq_none_iff_forall_ne_some.2 fun _ ht => h (weightsFinite_of_ofJson?_raw ht)

namespace Index

variable {index : Index} {pipeline : Pipeline} {bytes : Bytes}

/-! ### Indexes that are loaded from bytes -/

theorem pipeline_eq_of_ofBytes (hload : ofBytes bytes pipeline = .ok index) :
    index.pipeline = pipeline := by
  rw [ofBytes] at hload
  split at hload
  · obtain ⟨-, -, rfl⟩ := restore_eq_ok_iff.1 hload
    rfl
  · cases hload

/-- The texts of an index with a weight that is not finite are not read. -/
theorem ofText_eq_error (h : ¬ index.inverted.WeightsFinite) (pipeline : Pipeline) :
    ofText index.toText pipeline = .error .json ∧
      ofText index.toIndentedText pipeline = .error .json := by
  have hnone : Snapshot.ofJson? (Snapshot.ofIndex index).toJson.raw = none :=
    Snapshot.ofJson?_raw_eq_none h
  constructor
  · rw [ofText, toText, Snapshot.parse?, Json.parse?_compact, Option.bind_some, hnone]
  · rw [ofText, toIndentedText, Snapshot.parse?, Json.parse?_pretty, Option.bind_some, hnone]

/-- **Which snapshots can be converted.** The check admits only finite numbers in the configuration
of an index that is loaded from bytes. Its texts are read back as the same index if its weights are
finite as well; otherwise they are refused. -/
theorem text_of_bytes (hload : ofBytes bytes pipeline = .ok index) :
    ((∀ f ∈ index.config.fields, f.boost.isFinite = true) ∧
      index.config.lengthNormalization.isFinite = true) ∧
    (index.inverted.WeightsFinite →
      ofText index.toText pipeline = .ok index ∧
        ofText index.toIndentedText pipeline = .ok index) ∧
    (¬ index.inverted.WeightsFinite →
      ofText index.toText pipeline = .error .json ∧
        ofText index.toIndentedText pipeline = .error .json) := by
  have hconsistent := consistent_of_load (.inr ⟨bytes, hload⟩)
  have hboosts : ∀ f ∈ index.config.fields, f.boost.isFinite = true :=
    fun f hf => hconsistent.config.isFinite_boost hf
  have hb : index.config.lengthNormalization.isFinite = true :=
    hconsistent.config.isFinite_lengthNormalization
  refine ⟨⟨hboosts, hb⟩, fun hweights => ?_, fun hweights => ofText_eq_error hweights pipeline⟩
  have hstorable : index.Storable :=
    ⟨InvertedIndex.fault?_eq_none_iff.2 hconsistent, hboosts, hb, hweights⟩
  rw [← pipeline_eq_of_ofBytes hload]
  exact ⟨ofText_toText hstorable, ofText_toIndentedText hstorable⟩

theorem Sample.ofBytes_split :
    ofBytes Sample.split.toBytes Sample.split.pipeline = .ok Sample.split := by
  have hbytes := ofBytes_toBytes Sample.storable_split.consistent (by decide +kernel) []
  rwa [List.append_nil] at hbytes

theorem text_of_bytes_sample :
    ofText Sample.split.toText Sample.split.pipeline = .ok Sample.split := by
  obtain ⟨-, hfinite, -⟩ := text_of_bytes Sample.ofBytes_split
  exact (hfinite Sample.storable_split.finite.weights).1

/-- An index of one document with one term, whose weight is infinite. -/
def Sample.infinite : Index where
  inverted :=
    { config := Sample.config
      documentCount := 1
      fields := .ofList [("body",
        { Sample.oneTerm "green" "a" with
          terms := .ofList [("green", ⟨.infinity, .ofList [("a", .single 0)]⟩)] })] }
  pipeline := .english

/-- An infinite weight is admitted in bytes, and the text of the index is refused. -/
theorem infinite_weight_not_converted :
    ofBytes Sample.infinite.toBytes .english = .ok Sample.infinite ∧
      ofText Sample.infinite.toText .english = .error .json := by
  constructor
  · have hfault : Sample.infinite.inverted.fault? = none := by decide +kernel
    have hbytes := ofBytes_toBytes hfault (by decide +kernel) []
    rwa [List.append_nil] at hbytes
  · refine (ofText_eq_error (fun hweights => ?_) .english).1
    have hfinite : ∀ f ∈ Sample.infinite.inverted.fields.values, ∀ p ∈ f.terms.values,
        p.idf.isFinite = true := hweights
    revert hfinite
    decide +kernel

end Index

end FullText
