import FullText.InvertedIndex.Consistency
import FullText.Proofs.ConfigCheck
import FullText.Proofs.SortedMapKeys
import Mathlib

/-!
# Checked indexes

The check of an index goes through the configured fields, and in each field through the postings.
This file says without the walk which indexes pass. Everything is asked of each field by itself:
the fields need not record the same documents.

## Main definitions

* `FieldIndex.Consistent` : a field index that fits a number of documents.
* `InvertedIndex.Consistent` : an index whose configuration is usable and whose fields are the
  configured ones, each of them consistent.

## Main results

* `InvertedIndex.fault?_eq_none_iff` : the check finds nothing wrong with exactly these.
* `InvertedIndex.Consistent.mem_fieldNames` : there are no other fields than the configured ones.
-/

namespace FullText

/-- A field index that fits a number of documents. -/
structure FieldIndex.Consistent (f : FieldIndex) (documentCount : UInt64) : Prop where
  /-- There are as many lengths as documents. -/
  lengths : f.lengths.size = documentCount.toNat
  /-- The total length is the sum of the lengths. -/
  total : InvertedIndex.lengthSum f = f.totalLength
  /-- No posting lists more documents than there are. -/
  frequency : ∀ p ∈ f.terms.values, p.documentFrequency ≤ documentCount.toNat
  /-- The documents of a posting have lengths. -/
  recorded : ∀ p ∈ f.terms.values, ∀ r ∈ p.documents.keys, r ∈ f.lengths.keys

namespace InvertedIndex

/-- An index that can be used. -/
structure Consistent (index : InvertedIndex) : Prop where
  /-- The configuration is usable. -/
  config : index.config.Usable
  /-- There are as many fields as configured ones. -/
  fieldCount : index.fields.size = index.config.fields.length
  /-- Each configured field is there and fits the number of documents. -/
  field : ∀ name ∈ index.config.fieldNames,
    ∃ f, index.field? name = some f ∧ f.Consistent index.documentCount

theorem postingFault?_eq_none_iff {documentCount : UInt64} {field : String} {f : FieldIndex}
    {term : String} {p : Posting} : postingFault? documentCount field f term p = none ↔
      p.documentFrequency ≤ documentCount.toNat ∧ ∀ r ∈ p.documents.keys, r ∈ f.lengths.keys := by
  rw [postingFault?]
  split_ifs with hexcess
  · exact iff_of_false (by simp) fun h => absurd h.1 (Nat.not_le.2 hexcess)
  · simp [Nat.not_lt.1 hexcess, List.find?_eq_none, SortedMap.contains_iff]

/-- Nothing is wrong with exactly the field indexes that fit. -/
theorem fieldFault?_eq_none_iff {documentCount : UInt64} {name : String} {f : FieldIndex} :
    fieldFault? documentCount name f = none ↔ f.Consistent documentCount := by
  have hpostings : (f.terms.entries.findSome? fun e =>
      postingFault? documentCount name f e.1 e.2) = none ↔ ∀ p ∈ f.terms.values,
        p.documentFrequency ≤ documentCount.toNat ∧
          ∀ r ∈ p.documents.keys, r ∈ f.lengths.keys := by
    simp only [List.findSome?_eq_none_iff, postingFault?_eq_none_iff, SortedMap.values,
      List.forall_mem_map]
  rw [fieldFault?]
  split_ifs with hlengths htotal
  · exact iff_of_false (by simp) fun h => hlengths h.lengths
  · exact iff_of_false (by simp) fun h => htotal h.total
  · refine hpostings.trans ⟨fun h => ?_, fun h p hp => ?_⟩
    · exact ⟨not_not.1 hlengths, not_not.1 htotal, fun p hp => (h p hp).1, fun p hp => (h p hp).2⟩
    · exact ⟨h.frequency p hp, h.recorded p hp⟩

variable {index : InvertedIndex}

theorem fieldsFault?_eq_none_iff : index.fieldsFault? = none ↔
    index.fields.size = index.config.fields.length ∧ ∀ name ∈ index.config.fieldNames,
      ∃ f, index.field? name = some f ∧ f.Consistent index.documentCount := by
  rw [fieldsFault?]
  split_ifs with hcount
  · exact iff_of_false (by simp) fun h => hcount h.1
  · rw [List.findSome?_eq_none_iff, and_iff_right (not_not.1 hcount)]
    refine forall₂_congr fun name _ => ?_
    cases index.field? name with
    | none => simp
    | some f => simp [fieldFault?_eq_none_iff]

/-- **The check accepts exactly the consistent indexes.** -/
theorem fault?_eq_none_iff : index.fault? = none ↔ index.Consistent := by
  rw [fault?]
  cases hconfig : index.config.fault? with
  | some fault =>
    refine iff_of_false (by simp) fun h => ?_
    rw [Config.fault?_eq_none_iff.2 h.config] at hconfig
    cases hconfig
  | none =>
    rw [Option.map_eq_none_iff, fieldsFault?_eq_none_iff]
    constructor
    · exact fun h => ⟨Config.fault?_eq_none_iff.1 hconfig, h.1, h.2⟩
    · exact fun h => ⟨h.fieldCount, h.field⟩

/-- There are no other fields than the configured ones, since there are as many. -/
theorem Consistent.mem_fieldNames (h : index.Consistent) {name : String} {f : FieldIndex}
    (hf : index.field? name = some f) : name ∈ index.config.fieldNames := by
  have hsub : index.config.fieldNames ⊆ index.fields.keys := fun name hname => by
    obtain ⟨f, hf, -⟩ := h.field name hname
    exact SortedMap.mem_keys_iff.2 ⟨f, hf⟩
  have hperm : index.config.fieldNames.Perm index.fields.keys := by
    refine (List.subperm_of_subset h.config.nodup hsub).perm_of_length_le ?_
    exact Nat.le_of_eq (by simp [h.fieldCount, Config.fieldNames])
  exact hperm.mem_iff.2 (SortedMap.mem_keys_iff.2 ⟨f, hf⟩)

end InvertedIndex

end FullText
