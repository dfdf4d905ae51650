import FullText.Proofs.DocumentHits
import FullText.Proofs.FieldRecords
import FullText.Proofs.VocabularyRange

/-!
# Which documents are found

The hits of a list of expansions are gathered by document, and the documents are ranked. Which
documents come out does not depend on scores: a document is found if a match of some expansion
leads to it, unless it misses a required clause.

## Main definitions

* `InvertedIndex.Lists`, `InvertedIndex.Reaches` : a match or an expansion leads to a document.

## Main results

* `InvertedIndex.documentHits_ne_nil_iff` : the documents that have hits.
* `InvertedIndex.nodup_references_rank` : no document is found twice.
* `InvertedIndex.mem_expand_iff` : the matches of a clause.
-/

namespace FullText

namespace InvertedIndex

variable {index : InvertedIndex}

/-- Whether a match leads to a document: there is a posting for it that lists the document. -/
def Lists (index : InvertedIndex) (m : TermMatch) (reference : String) : Prop :=
  ∃ f, index.field? m.field = some f ∧ ∃ o, f.occurrences? m.term reference = some o

/-- Whether an expansion reaches a document: one of its matches leads to the document. -/
def Reaches (index : InvertedIndex) (e : Expansion) (reference : String) : Prop :=
  ∃ m ∈ SortedSet.toList e.found, index.Lists m reference

/-! ### Hits -/

/-- A document has a hit of the clause with a number if the expansion with that number reaches
it. -/
theorem exists_hit_of_clause_iff {es : List Expansion} {r : String} {n : Nat} :
    (∃ h ∈ index.documentHits es r, h.clause = n) ↔
      ∃ e, es[n]? = some e ∧ index.Reaches e r := by
  simp only [mem_documentHits_iff, mem_hits_iff, Reaches, Lists, FieldIndex.occurrences?,
    FieldIndex.occurrencesIn, Option.bind_eq_some_iff]
  constructor
  · rintro ⟨h, ⟨⟨e, f, p, he, hm, hf, hp, ho, -⟩, rfl⟩, rfl⟩
    exact ⟨e, he, h.found, hm, f, hf, h.occurrences, p, hp, ho⟩
  · rintro ⟨e, he, m, hm, f, hf, o, p, hp, ho⟩
    exact ⟨⟨n, m, r, o, index.contribution e.clause m.field f p r o⟩,
      ⟨⟨e, f, p, he, hm, hf, hp, ho, rfl⟩, rfl⟩, rfl⟩

/-- A document has a hit exactly if some expansion reaches it. -/
theorem documentHits_ne_nil_iff {es : List Expansion} {r : String} :
    index.documentHits es r ≠ [] ↔ ∃ e ∈ es, index.Reaches e r := by
  constructor
  · intro hne
    obtain ⟨e, he, hreaches⟩ := exists_hit_of_clause_iff.1 ⟨_, List.head_mem hne, rfl⟩
    exact ⟨e, List.mem_of_getElem? he, hreaches⟩
  · rintro ⟨e, he, hreaches⟩
    obtain ⟨n, hn⟩ := List.mem_iff_getElem?.1 he
    obtain ⟨h, hh, -⟩ := exists_hit_of_clause_iff.2 ⟨e, hn, hreaches⟩
    exact List.ne_nil_of_mem hh

/-! ### Results -/

/-- The references of the results are among those with a tally, in their order. -/
theorem references_results_sublist (index : InvertedIndex) (es : List Expansion) :
    ((index.results es).map (·.reference)).Sublist (tallies (index.hits es)).keys := by
  rw [results, SortedMap.keys]
  generalize (tallies (index.hits es)).entries = entries
  induction entries with
  | nil => exact .slnil
  | cons e rest ih =>
    rw [List.filterMap_cons, List.map_cons]
    split
    · exact ih.cons _
    · next result hresult =>
      have hreference : result.reference = e.1 := by
        obtain ⟨-, heq⟩ := Option.ite_none_right_eq_some.1 hresult
        rw [← Option.some.inj heq]
      rw [List.map_cons, hreference]
      exact ih.cons_cons _

theorem nodup_references_results (index : InvertedIndex) (es : List Expansion) :
    ((index.results es).map (·.reference)).Nodup :=
  (index.references_results_sublist es).nodup (SortedMap.nodup_keys _)

theorem references_rank_perm (index : InvertedIndex) (es : List Expansion) :
    ((index.rank es).map (·.reference)).Perm ((index.results es).map (·.reference)) :=
  (List.mergeSort_perm _ _).map _

/-- **No document is found twice.** -/
theorem nodup_references_rank (index : InvertedIndex) (es : List Expansion) :
    ((index.rank es).map (·.reference)).Nodup :=
  (index.references_rank_perm es).nodup_iff.2 (index.nodup_references_results es)

/-! ### Matches -/

theorem mem_scope_iff {c : Clause} {name : String} {f : FieldIndex} :
    (name, f) ∈ index.scope c ↔ name ∈ index.config.fieldNames ∧ index.field? name = some f ∧
      ∀ wanted, c.field = some wanted → wanted = name := by
  simp only [scope, configuredFields, List.mem_filter, List.mem_filterMap, Option.map_eq_some_iff,
    Prod.mk.injEq, Option.all_eq_true, decide_eq_true_eq]
  grind

/-- The matches of a clause are the terms that its filter accepts, in the fields that it looks
at. -/
theorem mem_matchesOf_iff {c : Clause} {filter : TermFilter} {m : TermMatch} :
    m ∈ index.matchesOf c filter ↔ ∃ f, (m.field, f) ∈ index.scope c ∧
      m.term ∈ f.vocabulary ∧ filter.accepts m.term = true := by
  obtain ⟨name, term⟩ := m
  simp only [matchesOf, List.mem_flatMap, List.mem_map, TermFilter.mem_select_iff, Prod.exists,
    TermMatch.mk.injEq]
  constructor
  · rintro ⟨name', f, hscope, term', hterm, rfl, rfl⟩
    exact ⟨f, hscope, hterm⟩
  · rintro ⟨f, hscope, hterm⟩
    exact ⟨name, f, hscope, term, hterm, rfl, rfl⟩

theorem mem_expand_iff (index : InvertedIndex) {c : Clause} {filter : TermFilter}
    (hfilter : TermFilter.ofClause c = .ok filter) :
    ∃ found, index.expand c = .ok found ∧ ∀ m, m ∈ SortedSet.toList found ↔
      ∃ f, (m.field, f) ∈ index.scope c ∧ m.term ∈ f.vocabulary ∧
        filter.accepts m.term = true := by
  refine ⟨SortedSet.ofElements (index.matchesOf c filter), ?_, fun m => ?_⟩
  · rw [expand, hfilter]
    rfl
  · rw [SortedSet.mem_toList_ofElements, mem_matchesOf_iff]

end InvertedIndex

end FullText
