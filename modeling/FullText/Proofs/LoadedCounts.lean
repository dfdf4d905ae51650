import FullText.Proofs.ConsistencyCheck
import FullText.Proofs.SearchScan
import FullText.Proofs.SnapshotRoundTrip

/-!
# How many documents a loaded index reports

A query reports only references that postings list, and together the postings can make it report
all of them. The check of an index that is loaded asks of every field by itself that it has a length
for as many documents as there are; it does not ask that these are the same documents. So a query
reports no more documents than there are if the fields that it looks at record the same ones, and
in general only no more than there are for each field.

## Main definitions

* `InvertedIndex.listedReferences` : the references that postings list, over all fields together.
* `InvertedIndex.recordedReferences` : the references that a field records.
* `InvertedIndex.RecordAlike` : some fields record the same documents.
* `InvertedIndex.queriedFields` : the fields that some clauses look at.

## Main results

* `InvertedIndex.length_rank_le`, `InvertedIndex.exists_length_rank_eq` : the listed references
  bound the number of results, and the bound is reached.
* `InvertedIndex.Consistent.size_listedReferences_le` : what the check makes of this bound.
* `Index.loaded_counts` : how many documents the queries of a loaded index report.
-/

namespace FullText

namespace InvertedIndex

/-! ### Listed references -/

/-- The references that postings list, over all fields together. -/
def listedReferences (index : InvertedIndex) : SortedSet String :=
  .ofElements <| index.fields.values.flatMap fun f => f.terms.values.flatMap fun p =>
    p.documents.keys

variable {index : InvertedIndex} {m : TermMatch} {r : String}

theorem lists_iff : index.Lists m r ↔ ∃ f, index.field? m.field = some f ∧
    ∃ p, f.posting? m.term = some p ∧ r ∈ p.documents.keys := by
  simp only [Lists, FieldIndex.occurrences?, FieldIndex.occurrencesIn, FieldIndex.posting?,
    Option.bind_eq_some_iff, Posting.occurrences?, SortedMap.mem_keys_iff]
  refine exists_congr fun f => and_congr_right fun _ => ?_
  constructor
  · rintro ⟨o, p, hp, ho⟩
    exact ⟨p, hp, o, ho⟩
  · rintro ⟨p, hp, o, ho⟩
    exact ⟨o, p, hp, ho⟩

/-- A reference is listed if some match leads to it. -/
theorem mem_listedReferences_iff :
    r ∈ SortedSet.toList index.listedReferences ↔ ∃ m, index.Lists m r := by
  simp only [listedReferences, SortedSet.mem_toList_ofElements, List.mem_flatMap,
    SortedMap.mem_values_iff, lists_iff]
  constructor
  · rintro ⟨f, ⟨name, hf⟩, p, ⟨term, hp⟩, hr⟩
    exact ⟨⟨name, term⟩, f, hf, p, hp, hr⟩
  · rintro ⟨⟨name, term⟩, f, hf, p, hp, hr⟩
    exact ⟨f, ⟨name, hf⟩, p, ⟨term, hp⟩, hr⟩

theorem exists_lists_of_mem_rank {es : List Expansion}
    (hr : r ∈ (index.rank es).map (·.reference)) :
    ∃ e ∈ es, ∃ m ∈ SortedSet.toList e.found, index.Lists m r :=
  (mem_references_rank_iff.1 hr).1

/-- **No more documents are reported than the postings list.** -/
theorem length_rank_le (index : InvertedIndex) (es : List Expansion) :
    (index.rank es).length ≤ index.listedReferences.size := by
  have hsub : (index.rank es).map (·.reference) ⊆ SortedSet.toList index.listedReferences := by
    intro r hr
    obtain ⟨e, -, m, -, hlists⟩ := exists_lists_of_mem_rank hr
    exact mem_listedReferences_iff.2 ⟨m, hlists⟩
  have hle := (index.nodup_references_rank es).length_le_of_subset hsub
  rwa [List.length_map, SortedSet.length_toList] at hle

/-- All terms in all fields. -/
def everyMatch (index : InvertedIndex) : SortedSet TermMatch :=
  .ofElements <| index.fields.entries.flatMap fun e => e.2.vocabulary.map (TermMatch.mk e.1)

theorem mem_everyMatch_of_lists (h : index.Lists m r) : m ∈ SortedSet.toList index.everyMatch := by
  obtain ⟨f, hf, p, hp, -⟩ := lists_iff.1 h
  rw [everyMatch, SortedSet.mem_toList_ofElements]
  refine List.mem_flatMap.2 ⟨(m.field, f), SortedMap.get?_eq_some_iff.1 hf, ?_⟩
  exact List.mem_map.2 ⟨m.term, SortedMap.mem_keys_iff.2 ⟨p, hp⟩, rfl⟩

/-- All listed references are reported of a clause with all matches. -/
theorem exists_length_rank_eq (index : InvertedIndex) :
    ∃ es, (index.rank es).length = index.listedReferences.size := by
  refine ⟨[⟨.ofTerm "", index.everyMatch⟩], ?_⟩
  have hperm : ((index.rank [⟨.ofTerm "", index.everyMatch⟩]).map (·.reference)).Perm
      (SortedSet.toList index.listedReferences) := by
    refine (List.perm_ext_iff_of_nodup (index.nodup_references_rank _)
      (SortedSet.nodup_toList _)).2 fun r => ?_
    refine (mem_references_rank_iff_of_optional (List.forall_mem_singleton.2 rfl)).trans <|
      Iff.trans ?_ mem_listedReferences_iff.symm
    simp only [List.mem_singleton, exists_eq_left, Reaches]
    constructor
    · rintro ⟨m, -, h⟩
      exact ⟨m, h⟩
    · rintro ⟨m, h⟩
      exact ⟨m, mem_everyMatch_of_lists h, h⟩
  have hlength := hperm.length_eq
  rwa [List.length_map, SortedSet.length_toList] at hlength

/-! ### Consistent indexes -/

/-- The references that a field records, if the index holds the field. -/
def recordedReferences (index : InvertedIndex) (name : String) : List String :=
  (index.field? name).elim [] fun f => f.lengths.keys

/-- Every configured field records as many documents as there are. -/
theorem Consistent.length_recordedReferences (h : index.Consistent) {name : String}
    (hname : name ∈ index.config.fieldNames) :
    (index.recordedReferences name).length = index.documentCount.toNat := by
  obtain ⟨f, hf, hfits⟩ := h.field name hname
  rw [recordedReferences, hf, Option.elim_some, SortedMap.length_keys, hfits.lengths]

/-- A document that a match leads to is recorded by the field of the match. -/
theorem Consistent.mem_recordedReferences_of_lists (h : index.Consistent)
    (hlists : index.Lists m r) :
    m.field ∈ index.config.fieldNames ∧ r ∈ index.recordedReferences m.field := by
  obtain ⟨f, hf, p, hp, hr⟩ := lists_iff.1 hlists
  have hname := h.mem_fieldNames hf
  obtain ⟨f', hf', hfits⟩ := h.field m.field hname
  obtain rfl := Option.some.inj (hf.symm.trans hf')
  refine ⟨hname, ?_⟩
  rw [recordedReferences, hf]
  exact hfits.recorded p (SortedMap.mem_values_iff.2 ⟨m.term, hp⟩) r hr

/-- **What the check makes of the bound:** as many documents as there are for each field. -/
theorem Consistent.size_listedReferences_le (h : index.Consistent) :
    index.listedReferences.size ≤ index.documentCount.toNat * index.config.fields.length := by
  have hsub : SortedSet.toList index.listedReferences ⊆
      index.config.fieldNames.flatMap index.recordedReferences := by
    intro r hr
    obtain ⟨m, hlists⟩ := mem_listedReferences_iff.1 hr
    exact List.mem_flatMap.2 ⟨m.field, h.mem_recordedReferences_of_lists hlists⟩
  have hrecorded :
      index.config.fieldNames.map (fun name => (index.recordedReferences name).length) =
        List.replicate index.config.fieldNames.length index.documentCount.toNat :=
    List.map_eq_replicate_iff.2 fun _ hname => h.length_recordedReferences hname
  calc index.listedReferences.size
      = (SortedSet.toList index.listedReferences).length := (SortedSet.length_toList _).symm
    _ ≤ (index.config.fieldNames.flatMap index.recordedReferences).length :=
        (SortedSet.nodup_toList _).length_le_of_subset hsub
    _ = index.config.fieldNames.length * index.documentCount.toNat := by
        rw [List.length_flatMap, hrecorded, List.sum_replicate_nat]
    _ = index.documentCount.toNat * index.config.fields.length := by
        rw [Nat.mul_comm, Config.fieldNames, List.length_map]

/-- Some fields record the same documents. -/
def RecordAlike (index : InvertedIndex) (names : List String) : Prop :=
  ∀ name ∈ names, ∀ name' ∈ names,
    index.recordedReferences name ⊆ index.recordedReferences name'

/-- References that are recorded by fields which record the same documents are not more than there
are documents. -/
theorem Consistent.length_le_of_recordAlike (h : index.Consistent) {names rs : List String}
    (hnames : names ⊆ index.config.fieldNames) (halike : index.RecordAlike names)
    (hnodup : rs.Nodup) (hrs : ∀ r ∈ rs, ∃ name ∈ names, r ∈ index.recordedReferences name) :
    rs.length ≤ index.documentCount.toNat := by
  by_cases hempty : rs = []
  · rw [hempty]
    exact Nat.zero_le _
  · obtain ⟨r, hr⟩ := List.exists_mem_of_ne_nil rs hempty
    obtain ⟨name, hname, -⟩ := hrs r hr
    have hsub : rs ⊆ index.recordedReferences name := by
      intro r' hr'
      obtain ⟨name', hname', hmem⟩ := hrs r' hr'
      exact halike name' hname' name hname hmem
    calc rs.length ≤ (index.recordedReferences name).length :=
          hnodup.length_le_of_subset hsub
      _ = index.documentCount.toNat := h.length_recordedReferences (hnames hname)

/-- If all fields record the same documents, there are not more listed references than
documents. -/
theorem Consistent.size_listedReferences_le_of_recordAlike (h : index.Consistent)
    (halike : index.RecordAlike index.config.fieldNames) :
    index.listedReferences.size ≤ index.documentCount.toNat := by
  rw [← SortedSet.length_toList]
  refine h.length_le_of_recordAlike (List.Subset.refl _) halike (SortedSet.nodup_toList _) ?_
  intro r hr
  obtain ⟨m, hlists⟩ := mem_listedReferences_iff.1 hr
  exact ⟨m.field, h.mem_recordedReferences_of_lists hlists⟩

/-- The names of the fields that some clauses look at. -/
def queriedFields (index : InvertedIndex) (cs : List Clause) : List String :=
  cs.flatMap fun c => (index.scope c).map (·.1)

theorem mem_queriedFields_iff {cs : List Clause} {name : String} :
    name ∈ index.queriedFields cs ↔ ∃ c ∈ cs, ∃ f, (name, f) ∈ index.scope c := by
  simp only [queriedFields, List.mem_flatMap, List.mem_map, Prod.exists, exists_and_right,
    exists_eq_right]

/-- If the fields that the clauses look at record the same documents, there are not more results
than documents. -/
theorem Consistent.length_rank_le (h : index.Consistent) {cs : List Clause} {es : List Expansion}
    (hes : ∀ e ∈ es, ∀ m ∈ SortedSet.toList e.found, m.field ∈ index.queriedFields cs)
    (halike : index.RecordAlike (index.queriedFields cs)) :
    (index.rank es).length ≤ index.documentCount.toNat := by
  have hconfigured : index.queriedFields cs ⊆ index.config.fieldNames := by
    intro name hname
    obtain ⟨c, -, f, hscope⟩ := mem_queriedFields_iff.1 hname
    exact (mem_scope_iff.1 hscope).1
  rw [← List.length_map SearchResult.reference]
  refine h.length_le_of_recordAlike hconfigured halike (index.nodup_references_rank es) ?_
  intro r hr
  obtain ⟨e, he, m, hm, hlists⟩ := exists_lists_of_mem_rank hr
  exact ⟨m.field, hes e he m hm, (h.mem_recordedReferences_of_lists hlists).2⟩

end InvertedIndex

namespace Index

variable {index : Index}

/-! ### Queries -/

/-- Valid clauses whose patterns compile are looked up, in the fields that they name. -/
theorem exists_expandAll_of_validate {cs : List Clause}
    (hcs : ∀ c ∈ cs, c.validate index.config = .ok ())
    (hcompile : ∀ c ∈ cs, ∀ c' ∈ index.normalize c, ∃ filter, TermFilter.ofClause c' = .ok filter) :
    ∃ es, index.expandAll cs = .ok es ∧ ∀ e ∈ es, ∀ m ∈ SortedSet.toList e.found,
      m.field ∈ index.inverted.queriedFields cs := by
  simp only [InvertedIndex.mem_queriedFields_iff]
  induction cs with
  | nil => exact ⟨[], rfl, nofun⟩
  | cons c cs ih =>
    obtain ⟨hc, hcs⟩ := List.forall_mem_cons.1 hcs
    obtain ⟨hfilters, hcompile⟩ := List.forall_mem_cons.1 hcompile
    obtain ⟨es, hes, -, hmatches⟩ := index.exists_mapM_expandOne hfilters
    obtain ⟨others, hothers, hscope⟩ := ih hcs hcompile
    have hexpand : index.expandClause c = .ok es := by
      rw [expandClause, hc]
      exact hes
    refine ⟨es ++ others, ?_, fun e he m hm => ?_⟩
    · rw [expandAll, hexpand, hothers]
      rfl
    · rcases List.mem_append.1 he with he | he
      · obtain ⟨c', hc', -, -, f, hf, -⟩ := (hmatches m).1 ⟨e, he, hm⟩
        obtain ⟨term, rfl⟩ := exists_of_mem_normalize hc'
        exact ⟨c, List.mem_cons_self, f, hf⟩
      · obtain ⟨d, hd, hfield⟩ := hscope e he m hm
        exact ⟨d, List.mem_cons_of_mem c hd, hfield⟩

theorem consistent_of_restore {s : Snapshot} {pipeline : Pipeline}
    (h : s.restore pipeline = .ok index) : index.inverted.Consistent := by
  obtain ⟨-, hfault, rfl⟩ := restore_eq_ok_iff.1 h
  exact InvertedIndex.fault?_eq_none_iff.1 hfault

/-- An index that is loaded from a JSON text or from bytes is consistent. -/
theorem consistent_of_load {pipeline : Pipeline}
    (hload : (∃ text, ofText text pipeline = .ok index) ∨
      ∃ bytes, ofBytes bytes pipeline = .ok index) : index.inverted.Consistent := by
  rcases hload with ⟨text, hload⟩ | ⟨bytes, hload⟩
  · rw [ofText] at hload
    split at hload
    · exact consistent_of_restore hload
    · cases hload
  · rw [ofBytes] at hload
    split at hload
    · exact consistent_of_restore hload
    · cases hload

/-- **How many documents a loaded index reports.** The postings of a loaded index list at most as
many references as there are documents for each field, at most as many as there are documents if all
fields record the same ones, and matches can be given of which all are reported. A query of valid
clauses whose patterns compile reports no more than these, and no more than there are documents if
the fields that it looks at record the same ones. -/
theorem loaded_counts {pipeline : Pipeline}
    (hload : (∃ text, ofText text pipeline = .ok index) ∨
      ∃ bytes, ofBytes bytes pipeline = .ok index) :
    (∃ es, (index.inverted.rank es).length = index.inverted.listedReferences.size) ∧
    index.inverted.listedReferences.size ≤
      index.documentCount.toNat * index.config.fields.length ∧
    (index.inverted.RecordAlike index.config.fieldNames →
      index.inverted.listedReferences.size ≤ index.documentCount.toNat) ∧
    ∀ cs : List Clause, (∀ c ∈ cs, c.validate index.config = .ok ()) →
      (∀ c ∈ cs, ∀ c' ∈ index.normalize c, ∃ filter, TermFilter.ofClause c' = .ok filter) →
      ∃ results, index.query cs = .ok results ∧
        results.length ≤ index.inverted.listedReferences.size ∧
        (index.inverted.RecordAlike (index.inverted.queriedFields cs) →
          results.length ≤ index.documentCount.toNat) := by
  have hconsistent := consistent_of_load hload
  refine ⟨index.inverted.exists_length_rank_eq, hconsistent.size_listedReferences_le,
    hconsistent.size_listedReferences_le_of_recordAlike, fun cs hcs hcompile => ?_⟩
  obtain ⟨es, hes, hscope⟩ := exists_expandAll_of_validate hcs hcompile
  refine ⟨index.inverted.rank es, ?_, index.inverted.length_rank_le es,
    hconsistent.length_rank_le hscope⟩
  rw [query, hes]
  rfl

/-- The index of a field with one term, which one document has. -/
def Sample.oneTerm (term reference : String) : FieldIndex where
  terms := .ofList [(term, ⟨.half, .ofList [(reference, .single 0)]⟩)]
  lengths := .ofList [(reference, 1)]
  totalLength := 1

/-- An index that claims one document. The two fields record different ones. -/
def Sample.split : Index where
  inverted :=
    { config := ⟨"id", [⟨"title", .one, false⟩, ⟨"body", .one, false⟩], .half⟩
      documentCount := 1
      fields := .ofList
        [("title", Sample.oneTerm "green" "a"), ("body", Sample.oneTerm "plum" "b")] }
  pipeline := ⟨.separator, []⟩

theorem Sample.storable_split : Sample.split.Storable where
  consistent := by decide +kernel
  finite := ⟨by decide +kernel, by decide +kernel, by decide +kernel⟩

theorem Sample.load_split : ofText Sample.split.toText Sample.split.pipeline = .ok Sample.split :=
  ofText_toText Sample.storable_split

/-- A query of one field of this index reports at most one document. -/
theorem loaded_counts_sample :
    Sample.split.inverted.listedReferences.size ≤ 2 ∧
    ∃ results, Sample.split.query [{ Clause.ofTerm "green" with field := some "title" }] =
      .ok results ∧ results.length ≤ 1 := by
  obtain ⟨-, hsize, -, hquery⟩ := loaded_counts (.inl ⟨_, Sample.load_split⟩)
  obtain ⟨results, hresults, -, hfew⟩ :=
    hquery [{ Clause.ofTerm "green" with field := some "title" }] (List.forall_mem_singleton.2 rfl)
      (List.forall_mem_singleton.2 (List.forall_mem_singleton.2 ⟨.exact "green", rfl⟩))
  exact ⟨hsize, results, hresults, hfew (by rw [InvertedIndex.RecordAlike]; decide +kernel)⟩

/-- The terms of both fields. -/
def Sample.twoTerms : List Clause := [.ofTerm "green", .ofTerm "plum"]

/-- A query of both fields reports two documents of this index, which claims one. -/
theorem results_exceed_documentCount :
    ofText Sample.split.toText Sample.split.pipeline = .ok Sample.split ∧
    ofBytes Sample.split.toBytes Sample.split.pipeline = .ok Sample.split ∧
    (∀ c ∈ Sample.twoTerms, c.validate Sample.split.config = .ok ()) ∧
    (∀ c ∈ Sample.twoTerms, ∀ c' ∈ Sample.split.normalize c,
      ∃ filter, TermFilter.ofClause c' = .ok filter) ∧
    ∃ results, Sample.split.query Sample.twoTerms = .ok results ∧
      Sample.split.documentCount.toNat < results.length := by
  have hbytes := ofBytes_toBytes Sample.storable_split.consistent (by decide +kernel) []
  rw [List.append_nil] at hbytes
  refine ⟨Sample.load_split, hbytes, ?_, ?_, _, rfl, ?_⟩
  · exact List.forall_mem_cons.2 ⟨rfl, List.forall_mem_singleton.2 rfl⟩
  · exact List.forall_mem_cons.2 ⟨List.forall_mem_singleton.2 ⟨.exact "green", rfl⟩,
      List.forall_mem_singleton.2 (List.forall_mem_singleton.2 ⟨.exact "plum", rfl⟩)⟩
  · rw [InvertedIndex.rank, List.length_mergeSort]
    decide +kernel

end Index

end FullText
