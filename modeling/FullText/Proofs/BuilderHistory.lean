import FullText.Proofs.BuilderRuns

/-!
# Histories of a builder

A builder is called with one document or with several, again and again, and some of the calls are
refused. The documents that a builder keeps are told here without the builder: by what is expected
of a document, and by what each call leaves and reports. The set of references plays no part in
that. What a builder holds after any calls is then exactly the documents told, with the set in step.

A reference is put into the set before the builder knows whether it is new. A refused call leaves
the set as it was all the same, because only a reference that is there already is refused then.

## Main definitions

* `IndexBuilder.Acceptable`, `IndexBuilder.Refused` : what is expected of a document, and what is
  reported of one that does not meet it.
* `IndexBuilder.Outcome`, `IndexBuilder.History` : what a call and a sequence of calls leave and
  report.
* `IndexBuilder.offer`, `IndexBuilder.call`, `IndexBuilder.run` : the calls, as changes of the
  builder.
* `IndexBuilder.Exact` : a builder holds what it should after some calls.

## Main results

* `IndexBuilder.Sound.outcome_iff` : what a call leaves and reports.
* `IndexBuilder.Sound.history_iff` : what a sequence of calls leaves and reports.
* `IndexBuilder.run_new_eq_iff` : a run ends with exactly what it should.
-/

namespace FullText

namespace IndexBuilder

/-! ### What is expected of documents -/

/-- A document has text for a field, some of which is not white space. -/
def HasText (d : Document) (field : String) : Prop :=
  ∃ text, d.field? field = some text ∧ ∃ c ∈ text.toList, Text.isBlank c = false

/-- What is expected of a document when others are kept already. -/
structure Acceptable (config : Config) (kept : List Document) (d : Document) : Prop where
  /-- The document has a reference. -/
  named : d.reference ≠ ""
  /-- The document has text for all required fields. -/
  complete : ∀ f ∈ config.fields, f.required = true → HasText d f.name
  /-- No document that is kept has the reference. -/
  fresh : ∀ e ∈ kept, e.reference ≠ d.reference

/-- What is reported of a document that is not acceptable: the first of these that is so. -/
inductive Refused (config : Config) (kept : List Document) (d : Document) : Error → Prop
  /-- The document has no reference. -/
  | unnamed (hreference : d.reference = "") : Refused config kept d (.document .emptyReference)
  /-- The document has a reference, and the first required field without text is reported. -/
  | incomplete {before f after} (hnamed : d.reference ≠ "")
      (hfields : config.fields = before ++ f :: after)
      (hbefore : ∀ g ∈ before, g.required = true → HasText d g.name)
      (hrequired : f.required = true) (hmissing : ¬ HasText d f.name) :
      Refused config kept d (.missingField d.reference f.name)
  /-- The document is complete, and a document that is kept has its reference. -/
  | repeated {e} (hnamed : d.reference ≠ "")
      (hcomplete : ∀ f ∈ config.fields, f.required = true → HasText d f.name)
      (he : e ∈ kept) (hreference : e.reference = d.reference) :
      Refused config kept d (.duplicateReference d.reference)

/-- Each document of a list is acceptable when those before it are kept as well. -/
def AllAcceptable (config : Config) (kept ds : List Document) : Prop :=
  ∀ before d after, ds = before ++ d :: after → Acceptable config (kept ++ before) d

/-- A call of a builder. -/
inductive Call where
  /-- With one document. -/
  | add (d : Document)
  /-- With several documents. -/
  | addAll (ds : List Document)

/-- What a call leaves of the documents and reports. -/
inductive Outcome (config : Config) (kept : List Document) :
    Call → List Document → Option Error → Prop
  /-- An acceptable document is the last one then. -/
  | accepted {d} (h : Acceptable config kept d) : Outcome config kept (.add d) (kept ++ [d]) none
  /-- A document that is not acceptable changes nothing. -/
  | refused {d e} (h : Refused config kept d e) : Outcome config kept (.add d) kept (some e)
  /-- Acceptable documents are all kept. -/
  | all {ds} (h : AllAcceptable config kept ds) :
      Outcome config kept (.addAll ds) (kept ++ ds) none
  /-- The documents before the first that is not acceptable are kept. -/
  | stopped (before d after) {e} (hbefore : AllAcceptable config kept before)
      (hd : Refused config (kept ++ before) d e) :
      Outcome config kept (.addAll (before ++ d :: after)) (kept ++ before) (some e)

/-- What a sequence of calls leaves of the documents, with the report of each call. -/
inductive History (config : Config) :
    List Document → List Call → List Document → List (Option Error) → Prop
  /-- Without calls nothing happens. -/
  | nil {kept} : History config kept [] kept []
  /-- The calls after the first one start with the documents that it leaves. -/
  | cons {kept kept' kept'' c cs report reports} (h : Outcome config kept c kept' report)
      (hs : History config kept' cs kept'' reports) :
      History config kept (c :: cs) kept'' (report :: reports)

/-! ### Calls as changes of the builder -/

/-- Offers a document. Whether its reference is there already is seen when it is put into the
set. -/
def offer (b : IndexBuilder) (d : Document) : IndexBuilder × Option Error :=
  if d.reference = "" then (b, some (.document .emptyReference))
  else match missingField? b.config d with
    | some field => (b, some (.missingField d.reference field))
    | none =>
      let offered := { b with references := SortedSet.add b.references d.reference }
      if b.references.contains d.reference then
        (offered, some (.duplicateReference d.reference))
      else ({ offered with documents := b.documents ++ [d] }, none)

/-- The builder after a call, with the report. -/
def call (b : IndexBuilder) : Call → IndexBuilder × Option Error
  | .add d => b.offer d
  | .addAll ds => b.addAll ds

/-- The builder after a sequence of calls, with the reports. -/
def run (b : IndexBuilder) : List Call → IndexBuilder × List (Option Error)
  | [] => (b, [])
  | c :: cs => (((b.call c).1.run cs).1, (b.call c).2 :: ((b.call c).1.run cs).2)

/-- A builder holds what it should after some calls, and goes on like that. -/
structure Exact (config : Config) (pipeline : Pipeline) (calls : List Call) (b : IndexBuilder)
    (reports : List (Option Error)) : Prop where
  /-- The documents and the reports are what the calls leave and report. -/
  history : History config [] calls b.documents reports
  /-- The references are distinct, and exactly those are in the set. -/
  sound : Sound config pipeline b
  /-- The acceptable documents are those that are accepted next. -/
  accepts : ∀ d, (b.call (.add d)).2 = none ↔ Acceptable config b.documents d
  /-- What is reported of a document offered next. -/
  refuses : ∀ d e, (b.call (.add d)).2 = some e ↔ Refused config b.documents d e
  /-- A refused document changes neither the documents nor the set. -/
  unchanged : ∀ d e, (b.call (.add d)).2 = some e → (b.call (.add d)).1 = b
  /-- After a refused document an acceptable one is accepted, even one with the same reference. -/
  corrected : ∀ d e d', (b.call (.add d)).2 = some e → Acceptable config b.documents d' →
    b.run [.add d, .add d'] = (b.collect d', [some e, none])

variable {config : Config} {pipeline : Pipeline} {b b' : IndexBuilder} {d : Document}

/-! ### Single documents -/

theorem hasText_iff {field : String} : hasText d field = true ↔ HasText d field := by
  rw [hasText, HasText]
  cases d.field? field <;> simp [Text.isBlankText]

theorem missingField?_eq_none_iff_hasText : missingField? config d = none ↔
    ∀ f ∈ config.fields, f.required = true → HasText d f.name := by
  simp only [missingField?_eq_none_iff, hasText_iff]

/-- The missing field is the first required one without text. -/
theorem missingField?_eq_some_iff {field : String} : missingField? config d = some field ↔
    ∃ before f after, config.fields = before ++ f :: after ∧
      (∀ g ∈ before, g.required = true → HasText d g.name) ∧
      f.required = true ∧ ¬ HasText d f.name ∧ f.name = field := by
  have hfind : missingField? config d = some field ↔
      ∃ f, config.fields.find? (fun f => f.required && !hasText d f.name) = some f ∧
        f.name = field := by
    rw [missingField?, List.find?_filter, Option.map_eq_some_iff]
    simp [Bool.decide_and]
  simp only [hfind, List.find?_eq_some_iff_append, ← hasText_iff]
  grind

theorem Sound.contains_iff (h : Sound config pipeline b) {r : String} :
    b.references.contains r = true ↔ ∃ e ∈ b.documents, e.reference = r := by
  rw [h.references, List.mem_map]

/-- Nothing is wrong with the acceptable documents. -/
theorem Sound.fault?_eq_none_iff (h : Sound config pipeline b) :
    b.fault? d = none ↔ Acceptable config b.documents d := by
  rw [IndexBuilder.fault?_eq_none_iff, h.config, missingField?_eq_none_iff_hasText,
    ← Bool.not_eq_true, h.contains_iff]
  constructor
  · rintro ⟨hnamed, hcomplete, hfresh⟩
    exact ⟨hnamed, hcomplete, fun e he heq => hfresh ⟨e, he, heq⟩⟩
  · rintro ⟨hnamed, hcomplete, hfresh⟩
    refine ⟨hnamed, hcomplete, ?_⟩
    rintro ⟨e, he, heq⟩
    exact hfresh e he heq

theorem Sound.refused_of_fault (h : Sound config pipeline b) {e : Error}
    (hfault : b.fault? d = some e) : Refused config b.documents d e := by
  rw [fault?, h.config] at hfault
  split at hfault
  · next hempty =>
    cases hfault
    exact .unnamed hempty
  · next hnamed =>
    split at hfault
    · next hmissing =>
      cases hfault
      obtain ⟨before, f, after, hfields, hbefore, hrequired, hf, rfl⟩ :=
        missingField?_eq_some_iff.1 hmissing
      exact .incomplete hnamed hfields hbefore hrequired hf
    · next hmissing =>
      split at hfault
      · next hcontains =>
        cases hfault
        obtain ⟨e', he', heq⟩ := h.contains_iff.1 hcontains
        exact .repeated hnamed (missingField?_eq_none_iff_hasText.1 hmissing) he' heq
      · cases hfault

theorem Sound.fault_of_refused (h : Sound config pipeline b) {e : Error}
    (hd : Refused config b.documents d e) : b.fault? d = some e := by
  rw [fault?, h.config]
  cases hd with
  | unnamed hempty => rw [if_pos hempty]
  | incomplete hnamed hfields hbefore hrequired hf =>
    have hmissing := missingField?_eq_some_iff.2
      ⟨_, _, _, hfields, hbefore, hrequired, hf, rfl⟩
    simp only [if_neg hnamed, hmissing]
  | repeated hnamed hcomplete he hreference =>
    have hmissing := missingField?_eq_none_iff_hasText.2 hcomplete
    have hcontains := h.contains_iff.2 ⟨_, he, hreference⟩
    simp only [if_neg hnamed, hmissing, hcontains, if_true]

/-- What is wrong with a document is what is reported of it. -/
theorem Sound.fault?_eq_some_iff (h : Sound config pipeline b) {e : Error} :
    b.fault? d = some e ↔ Refused config b.documents d e :=
  ⟨h.refused_of_fault, h.fault_of_refused⟩

/-! ### Calls -/

/-- Offering a document is collecting it, if it is accepted. Otherwise the builder stays as it was:
the reference that was put into the set last was in it before. -/
theorem offer_eq (b : IndexBuilder) (d : Document) :
    b.offer d = match b.add d with
      | .ok b' => (b', none)
      | .error e => (b, some e) := by
  rw [offer, add, fault?]
  by_cases hempty : d.reference = ""
  · simp [hempty]
  · rw [if_neg hempty, if_neg hempty]
    cases missingField? b.config d with
    | some field => rfl
    | none =>
      by_cases hcontains : b.references.contains d.reference = true
      · have hadd : SortedSet.add b.references d.reference = b.references := by
          refine SortedSet.ext_mem fun r => ?_
          rw [SortedSet.mem_toList_add, or_iff_right_iff_imp]
          rintro rfl
          exact SortedSet.contains_iff.1 hcontains
        simp [hcontains, hadd]
      · simp [hcontains]

theorem offer_of_fault {e : Error} (h : b.fault? d = some e) : b.offer d = (b, some e) := by
  rw [offer_eq, add, h]

theorem offer_of_faultless (h : b.fault? d = none) : b.offer d = (b.collect d, none) := by
  rw [offer_eq, add_eq_ok_iff.2 ⟨h, rfl⟩]

/-- The report of an offer tells what is wrong with the document. -/
theorem offer_snd (b : IndexBuilder) (d : Document) : (b.offer d).2 = b.fault? d := by
  cases hfault : b.fault? d with
  | none => rw [offer_of_faultless hfault]
  | some e => rw [offer_of_fault hfault]

/-- Several documents are offered one after another, up to the first that is refused. -/
theorem addAll_cons (b : IndexBuilder) (d : Document) (ds : List Document) :
    b.addAll (d :: ds) = match b.offer d with
      | (b', none) => b'.addAll ds
      | (b', some e) => (b', some e) := by
  rw [addAll, offer_eq]
  cases b.add d <;> rfl

theorem allAcceptable_nil (config : Config) (kept : List Document) :
    AllAcceptable config kept [] := by
  simp [AllAcceptable]

theorem allAcceptable_cons {kept ds : List Document} :
    AllAcceptable config kept (d :: ds) ↔
      Acceptable config kept d ∧ AllAcceptable config (kept ++ [d]) ds := by
  constructor
  · intro h
    refine ⟨by simpa using h [] d ds rfl, fun before d' after hds => ?_⟩
    simpa using h (d :: before) d' after (by rw [hds, List.cons_append])
  · rintro ⟨hd, hds⟩ before d' after heq
    rcases List.cons_eq_append_iff.1 heq with ⟨rfl, hcons⟩ | ⟨before', rfl, hds'⟩
    · cases hcons
      simpa using hd
    · simpa using hds before' d' after hds'

theorem Sound.addAll_eq_none (h : Sound config pipeline b) {ds : List Document}
    (hds : AllAcceptable config b.documents ds) : (b.addAll ds).2 = none := by
  induction ds generalizing b with
  | nil => rfl
  | cons d ds ih =>
    obtain ⟨hd, hds⟩ := allAcceptable_cons.1 hds
    have hfault := h.fault?_eq_none_iff.2 hd
    rw [addAll_cons, offer_of_faultless hfault]
    exact ih (h.add (add_eq_ok_iff.2 ⟨hfault, rfl⟩)) hds

/-- An acceptable document in front is kept, and the outcome is that of the others. -/
theorem Outcome.cons {kept ds kept' : List Document} {report : Option Error}
    (hd : Acceptable config kept d) (h : Outcome config (kept ++ [d]) (.addAll ds) kept' report) :
    Outcome config kept (.addAll (d :: ds)) kept' report := by
  cases h with
  | all hds => simpa using Outcome.all (allAcceptable_cons.2 ⟨hd, hds⟩)
  | stopped before e after hbefore he =>
    simpa using Outcome.stopped (d :: before) e after (allAcceptable_cons.2 ⟨hd, hbefore⟩)
      (by simpa using he)

/-- Collecting several documents has the outcome that is told of it. -/
theorem Sound.outcome_addAll (h : Sound config pipeline b) (ds : List Document) :
    Outcome config b.documents (.addAll ds) (b.addAll ds).1.documents (b.addAll ds).2 := by
  induction ds generalizing b with
  | nil => simpa [addAll] using Outcome.all (allAcceptable_nil config b.documents)
  | cons d ds ih =>
    rw [addAll_cons]
    cases hfault : b.fault? d with
    | some e =>
      rw [offer_of_fault hfault]
      have hd := h.fault?_eq_some_iff.1 hfault
      simpa using Outcome.stopped [] d ds (allAcceptable_nil config b.documents) (by simpa using hd)
    | none =>
      rw [offer_of_faultless hfault]
      exact .cons (h.fault?_eq_none_iff.1 hfault) (ih (h.add (add_eq_ok_iff.2 ⟨hfault, rfl⟩)))

/-- **What a call leaves and reports is what is told of it.** -/
theorem Sound.outcome_iff (h : Sound config pipeline b) {c : Call} {kept : List Document}
    {report : Option Error} :
    Outcome config b.documents c kept report ↔
      (b.call c).1.documents = kept ∧ (b.call c).2 = report := by
  constructor
  · rintro (⟨hd⟩ | ⟨hd⟩ | ⟨hds⟩ | ⟨before, d, after, hbefore, hd⟩)
    · rw [call, offer_of_faultless (h.fault?_eq_none_iff.2 hd)]
      exact ⟨rfl, rfl⟩
    · rw [call, offer_of_fault (h.fault?_eq_some_iff.2 hd)]
      exact ⟨rfl, rfl⟩
    · have hnone := h.addAll_eq_none hds
      exact ⟨documents_addAll hnone, hnone⟩
    · have hnone := h.addAll_eq_none hbefore
      have hsound : Sound config pipeline (b.addAll before).1 := addAll_induction h .add before
      rw [← documents_addAll hnone] at hd ⊢
      rw [call, addAll_append hnone, addAll_cons, offer_of_fault (hsound.fault?_eq_some_iff.2 hd)]
      exact ⟨rfl, rfl⟩
  · rintro ⟨rfl, rfl⟩
    cases c with
    | addAll ds => exact h.outcome_addAll ds
    | add d =>
      rw [call]
      cases hfault : b.fault? d with
      | none =>
        rw [offer_of_faultless hfault]
        exact .accepted (h.fault?_eq_none_iff.1 hfault)
      | some e =>
        rw [offer_of_fault hfault]
        exact .refused (h.fault?_eq_some_iff.1 hfault)

/-! ### Sequences of calls -/

theorem Sound.call (h : Sound config pipeline b) (c : Call) :
    Sound config pipeline (b.call c).1 := by
  cases c with
  | addAll ds => exact addAll_induction h .add ds
  | add d =>
    rw [IndexBuilder.call]
    cases hfault : b.fault? d with
    | none =>
      rw [offer_of_faultless hfault]
      exact h.add (add_eq_ok_iff.2 ⟨hfault, rfl⟩)
    | some e => rwa [offer_of_fault hfault]

theorem Sound.run (h : Sound config pipeline b) (cs : List Call) :
    Sound config pipeline (b.run cs).1 := by
  induction cs generalizing b with
  | nil => exact h
  | cons c cs ih => exact ih (h.call c)

/-- **What a sequence of calls leaves and reports is what is told of it.** -/
theorem Sound.history_iff (h : Sound config pipeline b) {cs : List Call} {kept : List Document}
    {reports : List (Option Error)} :
    History config b.documents cs kept reports ↔
      (b.run cs).1.documents = kept ∧ (b.run cs).2 = reports := by
  induction cs generalizing b reports with
  | nil =>
    constructor
    · rintro ⟨⟩
      exact ⟨rfl, rfl⟩
    · rintro ⟨rfl, rfl⟩
      exact .nil
  | cons c cs ih =>
    constructor
    · rintro (_ | ⟨houtcome, hs⟩)
      obtain ⟨rfl, rfl⟩ := h.outcome_iff.1 houtcome
      obtain ⟨rfl, rfl⟩ := (ih (h.call c)).1 hs
      exact ⟨rfl, rfl⟩
    · rintro ⟨rfl, rfl⟩
      exact .cons (h.outcome_iff.2 ⟨rfl, rfl⟩) ((ih (h.call c)).2 ⟨rfl, rfl⟩)

/-- Sound builders with the same documents are the same: the set of references is not free. -/
theorem Sound.eq_of_documents (h : Sound config pipeline b) (h' : Sound config pipeline b')
    (hdocuments : b.documents = b'.documents) : b = b' := by
  have hreferences : b.references = b'.references := by
    refine SortedSet.ext_mem fun r => ?_
    rw [← SortedSet.contains_iff, ← SortedSet.contains_iff, h.references, h'.references,
      hdocuments]
  have hconfig := h.config.trans h'.config.symm
  have hpipeline := h.pipeline.trans h'.pipeline.symm
  cases b
  cases b'
  cases hconfig
  cases hpipeline
  cases hdocuments
  cases hreferences
  rfl

/-- **A run ends with exactly what it should.** The documents are those of the history of the
calls, which are distinct by their references, and the set holds just these references. -/
theorem run_new_eq_iff {calls : List Call} {reports : List (Option Error)} :
    run (new config pipeline) calls = (b, reports) ↔ Exact config pipeline calls b reports := by
  have hrun : Sound config pipeline (run (new config pipeline) calls).1 := sound_new.run calls
  have hhistory {kept reports} : History config [] calls kept reports ↔
      (run (new config pipeline) calls).1.documents = kept ∧
        (run (new config pipeline) calls).2 = reports := sound_new.history_iff
  constructor
  · intro h
    rw [h] at hrun hhistory
    refine ⟨hhistory.2 ⟨rfl, rfl⟩, hrun, fun d => ?_, fun d e => ?_, fun d e he => ?_,
      fun d e d' he hd' => ?_⟩
    · rw [call, offer_snd, hrun.fault?_eq_none_iff]
    · rw [call, offer_snd, hrun.fault?_eq_some_iff]
    · rw [call, offer_snd] at he
      rw [call, offer_of_fault he]
    · rw [call, offer_snd] at he
      have hfault := hrun.fault?_eq_none_iff.2 hd'
      simp only [run, call, offer_of_fault he, offer_of_faultless hfault]
  · rintro ⟨h, hsound, -⟩
    obtain ⟨hdocuments, hreports⟩ := hhistory.1 h
    exact Prod.ext (hrun.eq_of_documents hsound hdocuments) hreports

end IndexBuilder

end FullText
