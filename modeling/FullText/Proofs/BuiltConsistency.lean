import FullText.Proofs.ConsistencyCheck
import FullText.Proofs.IndexContents
import FullText.Proofs.SnapshotText
import FullText.Proofs.TermWeights

/-!
# Built indexes are consistent

An index that is read from outside is checked before it is used. The check finds nothing wrong with
an index that the builder makes: its fields are the configured ones, each of them records one length
for each document, the total length is the sum of these, and no posting lists anything else. All
numbers in such an index are finite.

## Main results

* `FieldIndex.Records.consistent` : a field that records documents is consistent.
* `InvertedIndex.consistent_build` : a built index is consistent.
* `InvertedIndex.finite_build` : a built index holds finite numbers only.
-/

namespace FullText

namespace FieldIndex.Records

open InvertedIndex (lengthSum)

variable {documents : List (String × List Token)} {f : FieldIndex}

/-! ### Fields -/

theorem lengths_perm (h : Records documents f) (hnodup : (documents.map (·.1)).Nodup) :
    f.lengths.entries.Perm (documents.map fun e => (e.1, UInt32.ofNat e.2.length)) := by
  have hentries : (f.lengths.entries.map (·.1)).Nodup := f.lengths.nodup_keys
  have hlist : ((documents.map fun e => (e.1, UInt32.ofNat e.2.length)).map (·.1)).Nodup := by
    rwa [List.map_map]
  refine (List.perm_ext_iff_of_nodup hentries.of_map hlist.of_map).2 fun e => ?_
  obtain ⟨r, n⟩ := e
  have hlengths := h.lengths r
  rw [length?] at hlengths
  rw [← SortedMap.get?_eq_some_iff, hlengths, Option.map_eq_some_iff, List.mem_map]
  constructor
  · rintro ⟨tokens, htokens, rfl⟩
    exact ⟨(r, tokens), (lookup_eq_some_iff hnodup).1 htokens, rfl⟩
  · rintro ⟨⟨r', tokens⟩, hmem, heq⟩
    obtain ⟨rfl, rfl⟩ := Prod.mk.inj heq
    exact ⟨tokens, (lookup_eq_some_iff hnodup).2 hmem, rfl⟩

theorem size_lengths (h : Records documents f) (hnodup : (documents.map (·.1)).Nodup) :
    f.lengths.size = documents.length := by
  rw [SortedMap.size, (h.lengths_perm hnodup).length_eq, List.length_map]

theorem foldl_lengths (ns : List UInt32) (total : UInt64) :
    ns.foldl (fun total n => total + n.toUInt64) total =
      total + UInt64.ofNat (ns.map (·.toNat)).sum := by
  induction ns generalizing total with
  | nil => simp
  | cons n ns ih =>
    have hn : n.toUInt64 = UInt64.ofNat n.toNat := by
      rw [← UInt32.toNat_toUInt64, UInt64.ofNat_toNat]
    rw [List.foldl_cons, ih, List.map_cons, List.sum_cons, UInt64.ofNat_add, ← UInt64.add_assoc, hn]

theorem lengthSum_eq (h : Records documents f) (hnodup : (documents.map (·.1)).Nodup) :
    lengthSum f = f.totalLength := by
  have hvalues : (f.lengths.values.map (·.toNat)).Perm
      (documents.map fun e => (UInt32.ofNat e.2.length).toNat) := by
    have hperm := (h.lengths_perm hnodup).map fun e => e.2.toNat
    rw [List.map_map] at hperm
    rwa [SortedMap.values, List.map_map]
  rw [lengthSum, foldl_lengths, hvalues.sum_eq, h.total, UInt64.zero_add]

/-- A field that records the documents is consistent. -/
theorem consistent (h : Records documents f) (hnodup : (documents.map (·.1)).Nodup)
    {count : UInt64} (hcount : count.toNat = documents.length) : f.Consistent count where
  lengths := by rw [h.size_lengths hnodup, hcount]
  total := h.lengthSum_eq hnodup
  frequency p hp := by
    obtain ⟨term, hp⟩ := SortedMap.mem_values_iff.1 hp
    rw [h.documentFrequency_eq hnodup hp, hcount]
    exact List.length_filter_le _ _
  recorded p hp r hr := by
    obtain ⟨term, hp⟩ := SortedMap.mem_values_iff.1 hp
    obtain ⟨o, ho⟩ := SortedMap.mem_keys_iff.1 hr
    obtain ⟨tokens, htokens, -⟩ := (h.occurrences?_eq_some_iff hnodup hp).1 ho
    have hlength := h.lengths r
    rw [(lookup_eq_some_iff hnodup).2 htokens, length?] at hlength
    exact SortedMap.mem_keys_iff.2 ⟨_, hlength⟩

end FieldIndex.Records

theorem Binary64.isFinite_of_between {x : Binary64} (hleast : zero.lessOrSame x = true)
    (hgreatest : x.lessOrSame one = true) : x.isFinite = true := by
  simp only [lessOrSame, Bool.and_eq_true, Bool.not_eq_true', decide_eq_true_eq] at hleast hgreatest
  have hzero : zero.orderKey = 0 := by decide
  have hone : one.orderKey = 0x3FF0000000000000 := by decide
  have hkeys := And.intro hleast.2 hgreatest.2
  rw [hzero, hone, orderKey] at hkeys
  refine decide_eq_true ?_
  rw [infinityMagnitude]
  split_ifs at hkeys
  · omega
  · omega

/-! ### Numbers of a configuration -/

namespace Config.Usable

variable {c : Config}

theorem isFinite_boost (h : c.Usable) {f : FieldConfig} (hf : f ∈ c.fields) :
    f.boost.isFinite = true := by
  have hboost := (h.fields f hf).boost
  rw [Binary64.isPositiveFinite, Bool.and_eq_true] at hboost
  exact hboost.1

theorem isFinite_lengthNormalization (h : c.Usable) : c.lengthNormalization.isFinite = true :=
  Binary64.isFinite_of_between h.least h.greatest

end Config.Usable

namespace InvertedIndex

section Built

variable {config : Config} {pipeline : Pipeline} {documents : List Document}
  (hconfig : config.Usable) (hnodup : (documents.map (·.reference)).Nodup)
  (hcount : documents.length < UInt64.size)

include hconfig

theorem size_fields_build :
    (build config pipeline documents).fields.size = config.fields.length := by
  rw [SortedMap.size_eq_length hconfig.nodup, Config.fieldNames, List.length_map]
  intro name
  have hfield : (build config pipeline documents).field? name = _ :=
    field?_build hconfig.nodup documents name
  rw [field?] at hfield
  rw [hfield]
  split_ifs with hname
  · exact ⟨fun _ => ⟨_, rfl⟩, fun _ => hname⟩
  · refine ⟨fun h => absurd h hname, ?_⟩
    rintro ⟨_, h⟩
    cases h

include hnodup

/-- Some field of a built index records one length for each document. -/
theorem exists_size_lengths_eq (pipeline : Pipeline) : ∃ name f,
    (build config pipeline documents).field? name = some f ∧
      f.lengths.size = documents.length := by
  obtain ⟨f, hf⟩ := List.exists_mem_of_ne_nil config.fields hconfig.nonempty
  have hname : f.name ∈ config.fieldNames := List.mem_map_of_mem hf
  refine ⟨f.name, builtField pipeline f.name documents, ?_, ?_⟩
  · rw [field?_build hconfig.nodup, if_pos hname]
  · have hsize := (records_builtField pipeline hnodup f.name).size_lengths (by simpa using hnodup)
    rwa [fieldDocuments, List.length_map] at hsize

include hcount

/-- **A built index is consistent.** -/
theorem consistent_build : (build config pipeline documents).Consistent where
  config := by rwa [config_build]
  fieldCount := by rw [size_fields_build hconfig, config_build]
  field name hname := by
    rw [config_build] at hname
    rw [field?_build hconfig.nodup, if_pos hname]
    refine ⟨_, rfl, (records_builtField pipeline hnodup name).consistent (by simpa using hnodup) ?_⟩
    have hdocuments : (build config pipeline documents).documentCount.toNat = documents.length :=
      UInt64.toNat_ofNat_of_lt' hcount
    rw [hdocuments, fieldDocuments, List.length_map]

theorem fault?_build : (build config pipeline documents).fault? = none :=
  fault?_eq_none_iff.2 (consistent_build hconfig hnodup hcount)

/-- **A built index holds finite numbers only.** -/
theorem finite_build : (build config pipeline documents).Finite where
  boosts f hf := by
    rw [config_build] at hf
    exact hconfig.isFinite_boost hf
  lengthNormalization := by
    rw [config_build]
    exact hconfig.isFinite_lengthNormalization
  weights f hf p hp := by
    obtain ⟨name, hname⟩ := SortedMap.mem_values_iff.1 hf
    obtain ⟨term, hterm⟩ := SortedMap.mem_values_iff.1 hp
    have hfield : (build config pipeline documents).field? name = _ :=
      field?_build hconfig.nodup documents name
    rw [field?, hname] at hfield
    split_ifs at hfield
    obtain rfl := Option.some.inj hfield
    rw [idf_builtField hnodup hterm]
    exact inverseDocumentFrequency_isFinite
      (Nat.lt_of_le_of_lt (List.length_filter_le _ _) hcount) hcount

end Built

end InvertedIndex

end FullText
