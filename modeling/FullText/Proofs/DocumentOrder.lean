import FullText.Proofs.IndexContents

/-!
# The order of documents

Documents are recorded one after another, but what the index of a field records has no trace of
their order: the occurrences and the length of a document are looked up by its reference, the total
length is a sum of integers, and the weight of a term depends on a number of documents. So the index
of a list of documents is the same in every order of them.

## Main results

* `FieldIndex.Records.ext` : the index of a field is determined by what it records and its weights.
* `InvertedIndex.builtField_eq_of_perm` : the index of a field in another order of the documents.
* `InvertedIndex.build_eq_of_perm` : **the order of documents does not matter to an index.**
-/

namespace FullText

theorem Posting.ext {p q : Posting} (hidf : p.idf = q.idf)
    (hdocuments : ∀ r, p.occurrences? r = q.occurrences? r) : p = q := by
  obtain ⟨idf, documents⟩ := p
  obtain ⟨idf', documents'⟩ := q
  obtain rfl : idf = idf' := hidf
  obtain rfl : documents = documents' := SortedMap.ext_get? hdocuments
  rfl

namespace FieldIndex.Records

variable {documents documents' : List (String × List Token)} {f g : FieldIndex}

/-- The index of a field is determined by what it records, and by the weights of the terms. -/
theorem ext (hf : Records documents f) (hg : Records documents' g)
    (hperm : documents'.Perm documents) (hnodup : (documents.map (·.1)).Nodup)
    (hidf : ∀ term p q, f.posting? term = some p → g.posting? term = some q → p.idf = q.idf) :
    g = f := by
  have hnodup' : (documents'.map (·.1)).Nodup := (hperm.map _).nodup_iff.2 hnodup
  have hlookup (r : String) : documents'.lookup r = documents.lookup r :=
    Option.ext fun tokens => by
      rw [lookup_eq_some_iff hnodup, lookup_eq_some_iff hnodup', hperm.mem_iff]
  have hposting (term : String) : g.posting? term = f.posting? term := by
    have hsome : (∃ q, g.posting? term = some q) ↔ ∃ p, f.posting? term = some p := by
      simp only [hg.posting?_isSome_iff hnodup', hf.posting?_isSome_iff hnodup, hperm.mem_iff]
    cases hp : f.posting? term <;> cases hq : g.posting? term <;> simp [hp, hq] at hsome
    case none.none => rfl
    case some.some p q =>
      refine congrArg some (Posting.ext (hidf term p q hp hq).symm fun r => ?_)
      have hoccurrences : g.occurrences? term r = f.occurrences? term r := by
        rw [hg.occurrences, hf.occurrences, hlookup]
      rwa [FieldIndex.occurrences?, FieldIndex.occurrences?, occurrencesIn, occurrencesIn,
        ← posting?, ← posting?, hp, hq] at hoccurrences
  have hterms : g.terms = f.terms := SortedMap.ext_get? hposting
  have hlengths : g.lengths = f.lengths := SortedMap.ext_get? fun r => by
    rw [← length?, ← length?, hg.lengths, hf.lengths, hlookup]
  have htotal : g.totalLength = f.totalLength := by
    rw [hg.total, hf.total, (hperm.map _).sum_eq]
  cases f; cases g
  simp_all

end FieldIndex.Records

namespace InvertedIndex

variable {pipeline : Pipeline} {config : Config} {documents documents' : List Document}

/-- An index is determined by its configuration, its number of documents, and its fields. -/
theorem ext_field? {i j : InvertedIndex} (hconfig : i.config = j.config)
    (hcount : i.documentCount = j.documentCount) (hfields : ∀ name, i.field? name = j.field? name) :
    i = j := by
  have heq : i.fields = j.fields := SortedMap.ext_get? hfields
  cases i; cases j
  simp_all

/-- The index of a field is the same in every order of the documents. -/
theorem builtField_eq_of_perm (hperm : documents'.Perm documents)
    (hnodup : (documents.map (·.reference)).Nodup) (name : String) :
    builtField pipeline name documents' = builtField pipeline name documents := by
  have hnodup' : (documents'.map (·.reference)).Nodup := (hperm.map _).nodup_iff.2 hnodup
  refine (records_builtField pipeline hnodup name).ext (records_builtField pipeline hnodup' name)
    (hperm.map _) (by simpa using hnodup) fun term p q hp hq => ?_
  rw [idf_builtField hnodup hp, idf_builtField hnodup' hq, (hperm.filter _).length_eq,
    hperm.length_eq]

/-- **The order of documents does not matter to an index.** -/
theorem build_eq_of_perm (hnames : config.fieldNames.Nodup) (hperm : documents'.Perm documents)
    (hnodup : (documents.map (·.reference)).Nodup) :
    build config pipeline documents' = build config pipeline documents := by
  refine ext_field? ?_ ?_ fun name => ?_
  · rw [config_build, config_build]
  · rw [build, build, finish, finish, hperm.length_eq]
  · rw [field?_build hnames, field?_build hnames, builtField_eq_of_perm hperm hnodup]

end InvertedIndex

end FullText
