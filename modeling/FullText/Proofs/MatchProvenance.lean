import FullText.Proofs.MatchRecords
import FullText.Proofs.RequiredClauses

/-!
# Where match data comes from

The match data of a result is gathered hit by hit in two structures, the terms by field and the
terms alone. What comes out can be said without the hits: a term of a field is recorded exactly if
some expansion has it among its matches and its posting lists the document, and what is recorded is
the entry of the posting. Neither the number of the clauses that match a term nor their order
leaves a trace.

## Main definitions

* `InvertedIndex.entry?` : what the posting of a match has of a document.
* `InvertedIndex.Provenance` : match data that tells where a document comes from.

## Main results

* `InvertedIndex.mem_records_iff` : the records of a document, said without its hits.
* `InvertedIndex.provenance_iff_tells` : provenance is what the records of the hits tell.
* `InvertedIndex.rank_tells_provenance` : **match data is exactly the provenance of a result.**
-/

namespace FullText

namespace InvertedIndex

variable {index : InvertedIndex} {es : List Expansion} {r : String} {m : MatchData}

/-- What the posting of a match has of a document. -/
def entry? (index : InvertedIndex) (a : TermMatch) (reference : String) : Option Occurrences :=
  (index.posting? a.field a.term).bind fun p => p.occurrences? reference

/-- Match data that tells where a document comes from. -/
structure Provenance (index : InvertedIndex) (es : List Expansion) (reference : String)
    (m : MatchData) : Prop where
  /-- A term of a field is recorded exactly if some expansion matches it and its posting lists the
  document, and what is recorded is the entry of the posting. -/
  recorded : ∀ field term o,
    (∃ terms, m.fields.get? field = some terms ∧ terms.get? term = some o) ↔
      (∃ e ∈ es, ⟨field, term⟩ ∈ SortedSet.toList e.found) ∧
        index.entry? ⟨field, term⟩ reference = some o
  /-- No field is recorded without terms. -/
  nonempty : ∀ field terms, m.fields.get? field = some terms → terms ≠ .empty
  /-- The terms are those that are recorded under some field. -/
  terms : ∀ term, term ∈ SortedSet.toList m.terms ↔
    ∃ field terms, m.fields.get? field = some terms ∧ term ∈ terms.keys

/-! ### Records -/

/-- The records that the hits of a document make. -/
def records (index : InvertedIndex) (es : List Expansion) (reference : String) :
    List (TermMatch × Occurrences) :=
  (index.documentHits es reference).map fun h => (h.found, h.occurrences)

/-- A match of some expansion is recorded with the entry of its posting, and nothing else is. -/
theorem mem_records_iff {a : TermMatch} {o : Occurrences} :
    (a, o) ∈ index.records es r ↔
      (∃ e ∈ es, a ∈ SortedSet.toList e.found) ∧ index.entry? a r = some o := by
  simp only [records, List.mem_map, mem_documentHits_iff, mem_hits_iff, Prod.mk.injEq, entry?,
    posting?, Option.bind_eq_some_iff]
  constructor
  · rintro ⟨h, ⟨⟨e, f, p, he, hm, hf, hp, ho, -⟩, rfl⟩, rfl, rfl⟩
    exact ⟨⟨e, List.mem_of_getElem? he, hm⟩, p, ⟨f, hf, hp⟩, ho⟩
  · rintro ⟨⟨e, he, hm⟩, p, ⟨f, hf, hp⟩, ho⟩
    obtain ⟨n, hn⟩ := List.mem_iff_getElem?.1 he
    exact ⟨⟨n, a, r, o, index.contribution e.clause a.field f p r o⟩,
      ⟨⟨e, f, p, hn, hm, hf, hp, ho, rfl⟩, rfl⟩, rfl, rfl⟩

/-! ### Provenance -/

theorem exists_terms_iff {field term : String} {o : Occurrences} :
    (∃ terms, m.fields.get? field = some terms ∧ terms.get? term = some o) ↔
      m.occurrences? ⟨field, term⟩ = some o :=
  Option.bind_eq_some_iff.symm

section Recorded

variable {rs : List (TermMatch × Occurrences)}
  (h : ∀ a o, m.occurrences? a = some o ↔ (a, o) ∈ rs)

include h

/-- The terms that are recorded under some field are those of the records. -/
theorem exists_field_iff {term : String} :
    (∃ field terms, m.fields.get? field = some terms ∧ term ∈ terms.keys) ↔
      ∃ r ∈ rs, r.1.term = term := by
  constructor
  · rintro ⟨field, terms, hfield, hterm⟩
    obtain ⟨o, ho⟩ := SortedMap.mem_keys_iff.1 hterm
    exact ⟨_, (h _ _).1 (exists_terms_iff.1 ⟨terms, hfield, ho⟩), rfl⟩
  · rintro ⟨⟨a, o⟩, hr, rfl⟩
    obtain ⟨terms, hfield, ho⟩ := exists_terms_iff.2 ((h a o).2 hr)
    exact ⟨a.field, terms, hfield, SortedMap.mem_keys_iff.2 ⟨o, ho⟩⟩

/-- The fields under which terms are recorded are those of the records. -/
theorem exists_nonempty_iff {field : String} :
    (∃ terms, m.fields.get? field = some terms ∧ terms ≠ .empty) ↔
      ∃ r ∈ rs, r.1.field = field := by
  simp only [SortedMap.ne_empty_iff, SortedMap.mem_keys_iff]
  constructor
  · rintro ⟨terms, hfield, term, o, ho⟩
    exact ⟨_, (h _ _).1 (exists_terms_iff.1 ⟨terms, hfield, ho⟩), rfl⟩
  · rintro ⟨⟨a, o⟩, hr, rfl⟩
    obtain ⟨terms, hfield, ho⟩ := exists_terms_iff.2 ((h a o).2 hr)
    exact ⟨terms, hfield, a.term, o, ho⟩

end Recorded

/-- **Provenance is what the records of the hits tell.** -/
theorem provenance_iff_tells : index.Provenance es r m ↔ m.Tells (index.records es r) := by
  constructor
  · intro h
    have hrecorded (a : TermMatch) (o : Occurrences) :
        m.occurrences? a = some o ↔ (a, o) ∈ index.records es r := by
      rw [mem_records_iff, ← h.recorded, exists_terms_iff]
    refine ⟨fun term => ?_, fun field => ?_, hrecorded⟩
    · rw [h.terms, exists_field_iff hrecorded]
    · rw [SortedMap.mem_keys_iff, ← exists_nonempty_iff hrecorded]
      exact exists_congr fun terms =>
        ⟨fun hfield => ⟨hfield, h.nonempty field terms hfield⟩, And.left⟩
  · intro h
    refine ⟨fun field term o => ?_, fun field terms hfield => ?_, fun term => ?_⟩
    · rw [exists_terms_iff, h.occurrences, mem_records_iff]
    · obtain ⟨terms', hfield', hne⟩ := (exists_nonempty_iff h.occurrences).2
        ((h.fields field).1 (SortedMap.mem_keys_iff.2 ⟨terms, hfield⟩))
      rwa [Option.some.inj (hfield.symm.trans hfield')]
    · rw [h.terms, exists_field_iff h.occurrences]

/-- There is only one way to tell where a document comes from. -/
theorem Provenance.unique {n : MatchData} (hm : index.Provenance es r m)
    (hn : index.Provenance es r n) : m = n :=
  (provenance_iff_tells.1 hm).ext (provenance_iff_tells.1 hn) fun _ => .rfl

/-- Provenance depends on what the expansions match together, and on nothing else of them. -/
theorem Provenance.congr {es' : List Expansion} (h : index.Provenance es r m)
    (hsame : ∀ a, (∃ e ∈ es, a ∈ SortedSet.toList e.found) ↔
      ∃ e ∈ es', a ∈ SortedSet.toList e.found) : index.Provenance es' r m where
  recorded field term o := by rw [h.recorded, hsame]
  nonempty := h.nonempty
  terms := h.terms

/-- **Match data is exactly the provenance of a result.** It tells where the document comes from,
nothing else does, and expansions that match the same terms tell the same, whatever their number
and order. -/
theorem rank_tells_provenance (index : InvertedIndex) (es : List Expansion) :
    ∀ result ∈ index.rank es,
      index.Provenance es result.reference result.matchData ∧
      (∀ m, index.Provenance es result.reference m → m = result.matchData) ∧
      ∀ es', (∀ a, (∃ e ∈ es, a ∈ SortedSet.toList e.found) ↔
          ∃ e ∈ es', a ∈ SortedSet.toList e.found) →
        ∀ result' ∈ index.rank es', result'.reference = result.reference →
          result'.matchData = result.matchData := by
  have htells {es : List Expansion} {result : SearchResult} (h : result ∈ index.rank es) :
      index.Provenance es result.reference result.matchData := by
    rw [(mem_rank_iff.1 h).2.2.2]
    exact provenance_iff_tells.2 (index.tells_documentTally es result.reference)
  intro result hresult
  refine ⟨htells hresult, fun m hm => hm.unique (htells hresult), ?_⟩
  intro es' hsame result' hresult' hreference
  have h := htells hresult'
  rw [hreference] at h
  exact h.unique ((htells hresult).congr hsame)

/-- An index of two fields. Document `b` has a term in both of them, and twice in one. -/
def Sample.garden : InvertedIndex where
  config := ⟨"id", [⟨"title", .one, false⟩, ⟨"body", .one, false⟩], .zero⟩
  documentCount := 2
  fields := .ofList [
    ("title", {
      terms := .ofList [("plant", ⟨.one, .ofList [("b", .single 0)]⟩)]
      lengths := .ofList [("a", 0), ("b", 1)]
      totalLength := 1 }),
    ("body", {
      terms := .ofList [
        ("plant", ⟨.one, .ofList [("a", .single 0), ("b", ⟨2, [1, 4]⟩)]⟩),
        ("plumb", ⟨.one, .ofList [("b", .single 2)]⟩)]
      lengths := .ofList [("a", 1), ("b", 5)]
      totalLength := 6 })]

/-- The expansions of a pattern and of a term that the pattern matches too. A match that the index
does not hold is among them. -/
def Sample.plants : List Expansion := [
  ⟨.ofTerm "pl*", .ofElements [⟨"body", "plant"⟩, ⟨"body", "plumb"⟩, ⟨"title", "plant"⟩]⟩,
  ⟨.ofTerm "plant", .ofElements [⟨"body", "plant"⟩, ⟨"notes", "plant"⟩, ⟨"title", "plant"⟩]⟩]

/-- What is told of document `b` is the same in whatever order the two clauses stand. -/
theorem rank_tells_provenance_sample :
    ∃ result ∈ Sample.garden.rank Sample.plants, result.reference = "b" ∧
      Sample.garden.Provenance Sample.plants "b" result.matchData ∧
      ∃ result' ∈ Sample.garden.rank Sample.plants.reverse, result'.reference = "b" ∧
        result'.matchData = result.matchData := by
  obtain ⟨result, hresult, hb⟩ :
      ∃ result ∈ Sample.garden.rank Sample.plants, result.reference = "b" := by
    simp only [rank, List.mem_mergeSort]
    decide +kernel
  obtain ⟨result', hresult', hb'⟩ :
      ∃ result ∈ Sample.garden.rank Sample.plants.reverse, result.reference = "b" := by
    simp only [rank, List.mem_mergeSort]
    decide +kernel
  obtain ⟨htells, -, hsame⟩ := Sample.garden.rank_tells_provenance Sample.plants result hresult
  refine ⟨result, hresult, hb, hb ▸ htells, result', hresult', hb', ?_⟩
  exact hsame _ (fun a => by simp) result' hresult' (hb'.trans hb.symm)

end InvertedIndex

end FullText
