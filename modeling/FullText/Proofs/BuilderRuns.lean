import FullText.Index.Builder
import FullText.Proofs.SortedMapKeys

/-!
# Runs of a builder

A builder is reached from one without documents by collecting documents one at a time. What holds
of an empty builder and is kept by each document that is accepted holds of every builder that is
reached; a document that is refused does not change the builder at all.

## Main definitions

* `IndexBuilder.Reached` : the builders that can be reached.
* `IndexBuilder.Sound` : what every such builder satisfies.

## Main results

* `IndexBuilder.add_eq_ok_iff` : what a step does.
* `IndexBuilder.Reached.sound` : the references are distinct, and exactly those are remembered.
* `IndexBuilder.Reached.addAll` : a run is a sequence of steps.
* `IndexBuilder.addAll_new_eq_none_iff` : the lists of documents of which none is refused.
* `Index.build_eq_ok_iff` : the lists of documents of which there is an index.
-/

namespace FullText

namespace IndexBuilder

variable {config : Config} {pipeline : Pipeline} {b b' : IndexBuilder}

/-- The builders that can be reached from one without documents. -/
inductive Reached (config : Config) (pipeline : Pipeline) : IndexBuilder → Prop
  /-- The builder without documents. -/
  | new : Reached config pipeline (.new config pipeline)
  /-- A builder after a document that it accepts. -/
  | add {b b' d} (h : Reached config pipeline b) (hadd : b.add d = .ok b') :
      Reached config pipeline b'

/-! ### Steps -/

/-- The builder with another document, whether it is acceptable or not. -/
def collect (b : IndexBuilder) (d : Document) : IndexBuilder :=
  { b with documents := b.documents ++ [d], references := SortedSet.add b.references d.reference }

/-- A document is accepted if nothing is wrong with it, and it is the last one then. -/
theorem add_eq_ok_iff {d : Document} :
    b.add d = .ok b' ↔ b.fault? d = none ∧ b' = b.collect d := by
  rw [add]
  cases b.fault? d with
  | some e => simp
  | none => simp [collect, eq_comm]

theorem missingField?_eq_none_iff {d : Document} :
    missingField? config d = none ↔
      ∀ f ∈ config.fields, f.required = true → hasText d f.name = true := by
  simp [missingField?]

/-- Nothing is wrong with a document exactly if it has a reference, text for all required fields,
and no document before it has the reference. -/
theorem fault?_eq_none_iff {d : Document} : b.fault? d = none ↔
    d.reference ≠ "" ∧ missingField? b.config d = none ∧
      b.references.contains d.reference = false := by
  rw [fault?]
  by_cases hempty : d.reference = ""
  · simp [hempty]
  · rw [if_neg hempty]
    cases missingField? b.config d <;> simp [hempty]

/-! ### Runs -/

/-- What holds of every builder that is reached. -/
structure Sound (config : Config) (pipeline : Pipeline) (b : IndexBuilder) : Prop where
  /-- The configuration is the given one. -/
  config : b.config = config
  /-- The pipeline is the given one. -/
  pipeline : b.pipeline = pipeline
  /-- No two documents have the same reference. -/
  nodup : (b.documents.map (·.reference)).Nodup
  /-- Exactly the references of the documents are remembered. -/
  references : ∀ r, b.references.contains r = true ↔ r ∈ b.documents.map (·.reference)
  /-- No document is without a reference. -/
  named : ∀ d ∈ b.documents, d.reference ≠ ""

theorem sound_new : Sound config pipeline (.new config pipeline) where
  config := rfl
  pipeline := rfl
  nodup := .nil
  references r := by simp [new, SortedMap.contains]
  named := by simp [new]

theorem Sound.add {d : Document} (h : Sound config pipeline b) (hadd : b.add d = .ok b') :
    Sound config pipeline b' := by
  obtain ⟨hfault, rfl⟩ := add_eq_ok_iff.1 hadd
  obtain ⟨hnamed, -, hfresh⟩ := fault?_eq_none_iff.1 hfault
  refine ⟨h.config, h.pipeline, ?_, fun r => ?_, fun e he => ?_⟩
  · have hnew : d.reference ∉ b.documents.map (·.reference) := by
      rw [← h.references, hfresh]
      exact Bool.false_ne_true
    simpa [collect] using List.nodup_append.2
      ⟨h.nodup, List.nodup_singleton d.reference, by grind⟩
  · rw [collect, SortedSet.contains_iff, SortedSet.mem_toList_add, ← SortedSet.contains_iff,
      h.references]
    simp [or_comm]
  · rcases List.mem_append.1 he with he | he
    · exact h.named e he
    · rw [List.mem_singleton.1 he]
      exact hnamed

/-- **In every builder that is reached the references of the documents are distinct,** and exactly
those are remembered. -/
theorem Reached.sound (h : Reached config pipeline b) : Sound config pipeline b := by
  induction h with
  | new => exact sound_new
  | add _ hadd ih => exact ih.add hadd

/-- What is kept by each document that is accepted is kept by collecting several. -/
theorem addAll_induction {P : IndexBuilder → Prop} (h : P b)
    (hadd : ∀ {b b' d}, P b → b.add d = .ok b' → P b') (ds : List Document) :
    P (b.addAll ds).1 := by
  induction ds generalizing b with
  | nil => exact h
  | cons d rest ih =>
    rw [addAll]
    cases hd : b.add d with
    | ok b₁ => exact ih (hadd h hd)
    | error e => exact h

/-- Collecting documents up to the first that is refused takes accepting steps only. -/
theorem Reached.addAll (h : Reached config pipeline b) (ds : List Document) :
    Reached config pipeline (b.addAll ds).1 :=
  addAll_induction h .add ds

/-- If no document of a list is refused, those after it are collected as well. -/
theorem addAll_append {ds : List Document} (h : (b.addAll ds).2 = none) (es : List Document) :
    b.addAll (ds ++ es) = (b.addAll ds).1.addAll es := by
  induction ds generalizing b with
  | nil => rfl
  | cons d ds ih =>
    rw [addAll] at h
    rw [List.cons_append, addAll, addAll]
    cases hadd : b.add d with
    | ok b₁ => rw [hadd] at h; exact ih h
    | error e => simp [hadd] at h

/-- If no document is refused, all of them are collected. -/
theorem documents_addAll {ds : List Document} (h : (b.addAll ds).2 = none) :
    (b.addAll ds).1.documents = b.documents ++ ds := by
  induction ds generalizing b with
  | nil => exact (List.append_nil _).symm
  | cons d rest ih =>
    rw [addAll] at h ⊢
    cases hadd : b.add d with
    | ok b₁ =>
      obtain ⟨-, rfl⟩ := add_eq_ok_iff.1 hadd
      rw [hadd] at h
      exact (ih h).trans (by simp [collect])
    | error e => simp [hadd] at h

/-- No document of a list is refused if each has a reference of its own and text for all required
fields. -/
theorem Sound.addAll_eq_none_iff (h : Sound config pipeline b) {ds : List Document} :
    (b.addAll ds).2 = none ↔
      (∀ d ∈ ds, d.reference ≠ "" ∧ missingField? config d = none) ∧
        ((b.documents ++ ds).map (·.reference)).Nodup := by
  induction ds generalizing b with
  | nil => simp [addAll, h.nodup]
  | cons d rest ih =>
    rw [addAll, List.forall_mem_cons, List.append_cons]
    cases hadd : b.add d with
    | ok b₁ =>
      obtain ⟨hfault, hcollect⟩ := add_eq_ok_iff.1 hadd
      obtain ⟨hnamed, hmissing, -⟩ := fault?_eq_none_iff.1 hfault
      have hdocuments : b₁.documents = b.documents ++ [d] := by rw [hcollect, collect]
      rw [h.config] at hmissing
      simp only [ih (h.add hadd), hdocuments, hnamed, hmissing, ne_eq, not_false_eq_true,
        and_self, true_and]
    | error e =>
      refine iff_of_false (by simp) fun ⟨⟨⟨hnamed, hmissing⟩, _⟩, hnodup⟩ => ?_
      have hfresh : d.reference ∉ b.documents.map (·.reference) := by
        rw [List.map_append, List.map_append, List.nodup_append, List.nodup_append] at hnodup
        exact fun hd => hnodup.1.2.2 _ hd _ (by simp) rfl
      have hfault : b.fault? d = none := by
        rw [fault?_eq_none_iff, h.config]
        exact ⟨hnamed, hmissing, by rwa [← Bool.not_eq_true, h.references]⟩
      rw [IndexBuilder.add, hfault] at hadd
      cases hadd

/-- **No document of a list is refused exactly if each has a reference of its own and text for all
required fields.** -/
theorem addAll_new_eq_none_iff {documents : List Document} :
    ((new config pipeline).addAll documents).2 = none ↔
      (∀ d ∈ documents, d.reference ≠ "" ∧ missingField? config d = none) ∧
        (documents.map (·.reference)).Nodup :=
  sound_new.addAll_eq_none_iff

/-- If no document of a list is refused, no two of them have the same reference. -/
theorem nodup_references {documents : List Document}
    (h : ((new config pipeline).addAll documents).2 = none) :
    (documents.map (·.reference)).Nodup :=
  (addAll_new_eq_none_iff.1 h).2

end IndexBuilder

open IndexBuilder in
/-- **There is an index of a list of documents exactly if no document is refused and the
configuration is usable.** -/
theorem Index.build_eq_ok_iff {config : Config} {pipeline : Pipeline} {documents : List Document}
    {index : Index} :
    Index.build config pipeline documents = .ok index ↔
      ((new config pipeline).addAll documents).2 = none ∧ config.validate = .ok () ∧
        index = ⟨.build config pipeline documents, pipeline⟩ := by
  have hreached : Reached config pipeline ((new config pipeline).addAll documents).1 :=
    Reached.new.addAll documents
  rw [Index.build]
  rcases hadd : (new config pipeline).addAll documents with ⟨b, _ | e⟩
  · rw [hadd] at hreached
    have hdocuments : b.documents = documents := by
      have hall : ((new config pipeline).addAll documents).1.documents = [] ++ documents :=
        documents_addAll (by rw [hadd])
      rwa [hadd] at hall
    have hconfig : b.config = config := hreached.sound.config
    have hpipeline : b.pipeline = pipeline := hreached.sound.pipeline
    simp only [IndexBuilder.build, hconfig, hpipeline, hdocuments]
    cases config.validate with
    | ok u => simp [Functor.map, Except.map, eq_comm]
    | error e => simp [Functor.map, Except.map]
  · simp

end FullText
