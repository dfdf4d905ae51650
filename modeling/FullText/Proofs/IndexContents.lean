import FullText.Proofs.BuilderRuns
import FullText.Proofs.ConfigCheck
import FullText.Proofs.FieldRecords
import FullText.Proofs.TokenOrder

/-!
# The contents of a built index

An index is built by one walk over the documents, in which each document goes through the fields
one after another. The fields do not meet in that walk: the index of a field is what the walk over
the documents makes of the empty index of that field alone. What it records is known from there,
so that the contents of a built index can be told from the texts of the documents.

## Main definitions

* `InvertedIndex.fieldDocuments` : the references of documents with the tokens of a field.
* `InvertedIndex.builtField` : the index of one field of a list of documents.
* `InvertedIndex.FieldContents` : the index of a field tells exactly which tokens the texts have.

## Main results

* `InvertedIndex.field?_build` : the fields of a built index do not depend on one another.
* `InvertedIndex.records_builtField` : the index of a field records the tokens of the documents.
* `InvertedIndex.mem_vocabulary_build_iff` : the vocabularies hold the tokens of the texts.
* `Index.build_contents` : **an index that is built loses and duplicates nothing.**
-/

namespace FullText

namespace InvertedIndex

variable {pipeline : Pipeline} {config : Config}

/-- The references of documents with the tokens of a field. -/
def fieldDocuments (pipeline : Pipeline) (name : String) (documents : List Document) :
    List (String × List Token) :=
  documents.map fun d => (d.reference, fieldTokens pipeline d name)

/-- The index of one field of a list of documents. -/
def builtField (pipeline : Pipeline) (name : String) (documents : List Document) : FieldIndex :=
  (FieldIndex.empty.addAll (fieldDocuments pipeline name documents)).weigh documents.length

@[simp] theorem references_fieldDocuments (pipeline : Pipeline) (name : String)
    (documents : List Document) :
    (fieldDocuments pipeline name documents).map (·.1) = documents.map (·.reference) := by
  simp [fieldDocuments]

theorem mem_fieldDocuments {name : String} {documents : List Document} {r : String}
    {tokens : List Token} : (r, tokens) ∈ fieldDocuments pipeline name documents ↔
      ∃ d ∈ documents, d.reference = r ∧ fieldTokens pipeline d name = tokens := by
  simp [fieldDocuments]

/-! ### The tokens of a field

A document without a text in a field has no tokens there. What is said of its tokens is said of the
text, if there is one. -/

theorem fieldTokens_of_field? {d : Document} {name text : String}
    (h : d.field? name = some text) : fieldTokens pipeline d name = pipeline.analyze text := by
  rw [fieldTokens, h]
  rfl

/-- A document has a token in a field if its text there has it. -/
theorem exists_mem_fieldTokens_iff {d : Document} {name : String} {p : Token → Prop} :
    (∃ t ∈ fieldTokens pipeline d name, p t) ↔
      ∃ text, d.field? name = some text ∧ ∃ t ∈ pipeline.analyze text, p t := by
  rw [fieldTokens]
  cases d.field? name <;> simp

theorem length_fieldTokens (pipeline : Pipeline) (d : Document) (name : String) :
    (fieldTokens pipeline d name).length =
      (d.field? name).elim 0 fun text => (pipeline.analyze text).length := by
  rw [fieldTokens]
  cases d.field? name <;> rfl

theorem any_fieldTokens (pipeline : Pipeline) (d : Document) (name : String) (p : Token → Bool) :
    (fieldTokens pipeline d name).any p =
      (d.field? name).any fun text => (pipeline.analyze text).any p := by
  rw [fieldTokens]
  cases d.field? name <;> rfl

/-! ### Fields are built apart -/

/-- A document reaches the index of each named field once. -/
theorem get?_addFields (pipeline : Pipeline) (d : Document) (fields : SortedMap String FieldIndex)
    {names : List String} (hnames : names.Nodup) (name : String) :
    (addFields pipeline d fields names).get? name =
      if name ∈ names then
        (fields.get? name).map fun f => f.addDocument d.reference (fieldTokens pipeline d name)
      else fields.get? name := by
  induction names generalizing fields with
  | nil => rfl
  | cons n rest ih =>
    obtain ⟨hn, hrest⟩ := List.nodup_cons.1 hnames
    rw [addFields, List.foldl_cons, ← addFields, ih _ hrest, SortedMap.get?_modify]
    by_cases hname : name = n
    · subst hname
      rw [if_neg hn, if_pos rfl, if_pos List.mem_cons_self]
    · rw [if_neg hname]
      simp [hname]

theorem config_addDocuments (pipeline : Pipeline) (documents : List Document)
    (index : InvertedIndex) :
    (documents.foldl (addDocument pipeline) index).config = index.config := by
  induction documents generalizing index with
  | nil => rfl
  | cons d rest ih => rw [List.foldl_cons, ih, addDocument]

/-- The walk over the documents, seen from one field. -/
theorem get?_addDocuments (documents : List Document) {index : InvertedIndex}
    (hnames : index.config.fieldNames.Nodup) (name : String) :
    (documents.foldl (addDocument pipeline) index).fields.get? name =
      if name ∈ index.config.fieldNames then
        (index.fields.get? name).map fun f =>
          f.addAll (fieldDocuments pipeline name documents)
      else index.fields.get? name := by
  induction documents generalizing index with
  | nil => simp [fieldDocuments, FieldIndex.addAll]
  | cons d rest ih =>
    have hconfig : (addDocument pipeline index d).config = index.config := rfl
    have hfields : (addDocument pipeline index d).fields =
      addFields pipeline d index.fields index.config.fieldNames := rfl
    rw [List.foldl_cons, ih (hconfig ▸ hnames), hconfig, hfields, get?_addFields _ _ _ hnames]
    split
    · rw [Option.map_map]; rfl
    · rfl

theorem get?_fields_empty (config : Config) (name : String) :
    (empty config).fields.get? name = if name ∈ config.fieldNames then some .empty else none := by
  have hkey : name ∈ (empty config).fields.keys ↔ name ∈ config.fieldNames := by
    simp [empty, SortedMap.mem_keys_ofList]
  split
  · next h =>
    obtain ⟨f, hf⟩ := SortedMap.mem_keys_iff.1 (hkey.2 h)
    have hlookup := hf
    rw [empty, SortedMap.get?_ofList, Option.map_eq_some_iff] at hlookup
    obtain ⟨e, he, rfl⟩ := hlookup
    obtain ⟨n, -, rfl⟩ := List.mem_map.1 (List.mem_reverse.1 (List.mem_of_find?_eq_some he))
    exact hf
  · next h => exact SortedMap.get?_eq_none_iff.2 fun hmem => h (hkey.1 hmem)

/-- **The fields of a built index do not depend on one another.** -/
theorem field?_build (hnames : config.fieldNames.Nodup) (documents : List Document)
    (name : String) : (build config pipeline documents).field? name =
      if name ∈ config.fieldNames then some (builtField pipeline name documents) else none := by
  rw [field?, build, finish, SortedMap.get?_mapValues, get?_addDocuments documents hnames,
    get?_fields_empty]
  have hconfig : (empty config).config = config := rfl
  rw [hconfig]
  split <;> rfl

@[simp] theorem config_build (documents : List Document) :
    (build config pipeline documents).config = config := by
  rw [build, finish, config_addDocuments, empty]

/-- The index of a field records the tokens of the documents. -/
theorem records_builtField (pipeline : Pipeline) {documents : List Document}
    (hnodup : (documents.map (·.reference)).Nodup) (name : String) :
    (builtField pipeline name documents).Records (fieldDocuments pipeline name documents) := by
  have h := FieldIndex.Records.empty.addAll (fieldDocuments pipeline name documents)
    (by simpa using hnodup)
  rw [List.nil_append] at h
  exact h.weigh documents.length

/-! ### What the index of a field tells -/

/-- The index of a field tells exactly which tokens the texts of the documents have in the field. -/
structure FieldContents (pipeline : Pipeline) (documents : List Document) (name : String)
    (f : FieldIndex) : Prop where
  /-- A term has a posting exactly if the text of some document has a token with it. -/
  posting : ∀ term, (∃ p, f.posting? term = some p) ↔
    ∃ d ∈ documents, ∃ text, d.field? name = some text ∧
      ∃ t ∈ pipeline.analyze text, t.text = term
  /-- A posting lists a document exactly if its text has a token with the term. -/
  listed : ∀ term, ∀ d ∈ documents, (∃ o, f.occurrences? term d.reference = some o) ↔
    ∃ text, d.field? name = some text ∧ ∃ t ∈ pipeline.analyze text, t.text = term
  /-- A posting lists nothing but documents. -/
  document : ∀ term r o, f.occurrences? term r = some o → ∃ d ∈ documents, d.reference = r
  /-- The positions of a term are those of its tokens, in the order of the tokens. -/
  positions : ∀ term, ∀ d ∈ documents, ∀ text, d.field? name = some text →
    ∀ o, f.occurrences? term d.reference = some o →
      o.positions.map (·.toNat) = Token.positionsOf term (pipeline.analyze text)
  /-- The frequency of a term is the number of its tokens. -/
  frequency : ∀ term, ∀ d ∈ documents, ∀ text, d.field? name = some text →
    ∀ o, f.occurrences? term d.reference = some o →
      o.frequency.toNat = (Token.positionsOf term (pipeline.analyze text)).length
  /-- Every document has a length, the number of the tokens of its text, zero without a text. -/
  length : ∀ d ∈ documents, ∃ n, f.length? d.reference = some n ∧
    n.toNat = (d.field? name).elim 0 fun text => (pipeline.analyze text).length
  /-- Nothing but documents has a length. -/
  lengthDocument : ∀ r n, f.length? r = some n → ∃ d ∈ documents, d.reference = r
  /-- The total length is the sum of the lengths. -/
  total : f.totalLength = UInt64.ofNat
    (documents.map fun d =>
      (d.field? name).elim 0 fun text => (pipeline.analyze text).length).sum
  /-- The frequencies of all terms in a document add up to its length. -/
  frequencies : ∀ d ∈ documents,
    (f.vocabulary.map fun term =>
      ((f.occurrences? term d.reference).map fun o => o.frequency.toNat).getD 0).sum =
      (d.field? name).elim 0 fun text => (pipeline.analyze text).length
  /-- The inverse document frequency is computed from the number of documents with the term. -/
  idf : ∀ term p, f.posting? term = some p → p.idf = inverseDocumentFrequency
    (documents.filter fun d => (d.field? name).any fun text =>
      (pipeline.analyze text).any fun t => t.text = term).length
    documents.length

/-- Few enough tokens for the counters of an index, at places that fit into its positions. -/
def FitsCounters (tokens : List Token) : Prop :=
  tokens.length < UInt32.size ∧ ∀ t ∈ tokens, t.position < UInt32.size

instance (tokens : List Token) : Decidable (FitsCounters tokens) :=
  inferInstanceAs (Decidable (_ ∧ _))

theorem FitsCounters.lt_of_mem_positionsOf {tokens : List Token} (h : FitsCounters tokens)
    {term : String} {n : Nat} (hn : n ∈ Token.positionsOf term tokens) : n < UInt32.size := by
  obtain ⟨t, ht, rfl⟩ := List.mem_map.1 hn
  exact h.2 t (List.mem_of_mem_filter ht)

theorem FitsCounters.length_positionsOf_lt {tokens : List Token} (h : FitsCounters tokens)
    (term : String) : (Token.positionsOf term tokens).length < UInt32.size := by
  rw [Token.positionsOf, List.length_map]
  exact Nat.lt_of_le_of_lt (List.length_filter_le _ _) h.1

/-- The tokens of a field fit the counters if those of its text do. -/
theorem fitsCounters_fieldTokens {d : Document} {name : String}
    (h : ∀ text, d.field? name = some text → FitsCounters (pipeline.analyze text)) :
    FitsCounters (fieldTokens pipeline d name) := by
  cases hfield : d.field? name with
  | none =>
    rw [fieldTokens, hfield, Option.map_none, Option.getD_none]
    decide
  | some text =>
    rw [fieldTokens_of_field? hfield]
    exact h text hfield

section Contents

variable {documents : List Document} (hnodup : (documents.map (·.reference)).Nodup)

include hnodup

theorem lookup_fieldDocuments {name : String} {d : Document} (hd : d ∈ documents) :
    (fieldDocuments pipeline name documents).lookup d.reference =
      some (fieldTokens pipeline d name) :=
  (FieldIndex.Records.lookup_eq_some_iff (by simpa using hnodup)).2
    (mem_fieldDocuments.2 ⟨d, hd, rfl, rfl⟩)

theorem occurrences?_builtField {name term : String} {d : Document} (hd : d ∈ documents)
    {o : Occurrences} :
    (builtField pipeline name documents).occurrences? term d.reference = some o ↔
      Token.positionsOf term (fieldTokens pipeline d name) ≠ [] ∧
      o = ⟨UInt32.ofNat (Token.positionsOf term (fieldTokens pipeline d name)).length,
        (Token.positionsOf term (fieldTokens pipeline d name)).map UInt32.ofNat⟩ := by
  rw [(records_builtField pipeline hnodup name).occurrences, lookup_fieldDocuments hnodup hd,
    Option.bind_some, Occurrences.ofPositions?_eq_some_iff]

/-- A posting lists a document exactly if its text has a token with the term. -/
theorem occurrences?_builtField_isSome_iff {name term : String} {d : Document}
    (hd : d ∈ documents) :
    (∃ o, (builtField pipeline name documents).occurrences? term d.reference = some o) ↔
      ∃ text, d.field? name = some text ∧ ∃ t ∈ pipeline.analyze text, t.text = term := by
  rw [← exists_mem_fieldTokens_iff]
  simp only [occurrences?_builtField hnodup hd, exists_and_left, exists_eq, and_true, Ne,
    Token.positionsOf_eq_nil_iff, not_forall, not_not, exists_prop]

theorem idf_builtField {name term : String} {p : Posting}
    (hp : (builtField pipeline name documents).posting? term = some p) :
    p.idf = inverseDocumentFrequency (documents.filter fun d =>
      (fieldTokens pipeline d name).any fun t => t.text = term).length documents.length := by
  obtain ⟨q, hq, hidf, hdocuments⟩ := FieldIndex.exists_posting?_of_weigh hp
  have hfrequency := (records_builtField pipeline hnodup name).documentFrequency_eq
    (by simpa using hnodup) hp
  rw [Posting.documentFrequency, hdocuments, ← Posting.documentFrequency] at hfrequency
  rw [hidf, hfrequency, fieldDocuments, List.filter_map, List.length_map]
  rfl

theorem exists_document_of_lookup {name r : String} {tokens : List Token}
    (h : (fieldDocuments pipeline name documents).lookup r = some tokens) :
    ∃ d ∈ documents, d.reference = r := by
  rw [FieldIndex.Records.lookup_eq_some_iff (by simpa using hnodup), mem_fieldDocuments] at h
  obtain ⟨d, hd, hr, -⟩ := h
  exact ⟨d, hd, hr⟩

/-- A posting lists nothing but documents. -/
theorem exists_document_of_occurrences? {name term r : String} {o : Occurrences}
    (h : (builtField pipeline name documents).occurrences? term r = some o) :
    ∃ d ∈ documents, d.reference = r := by
  rw [(records_builtField pipeline hnodup name).occurrences, Option.bind_eq_some_iff] at h
  obtain ⟨tokens, htokens, -⟩ := h
  exact exists_document_of_lookup hnodup htokens

/-- A term has a posting exactly if the text of some document has a token with it. -/
theorem posting?_builtField_isSome_iff (name term : String) :
    (∃ p, (builtField pipeline name documents).posting? term = some p) ↔
      ∃ d ∈ documents, ∃ text, d.field? name = some text ∧
        ∃ t ∈ pipeline.analyze text, t.text = term := by
  rw [(records_builtField pipeline hnodup name).posting?_isSome_iff (by simpa using hnodup)]
  simp only [fieldDocuments, List.mem_map, exists_exists_and_eq_and, exists_mem_fieldTokens_iff]

/-- The vocabulary of a field holds the tokens of the texts. -/
theorem mem_vocabulary_builtField {name term : String} :
    term ∈ (builtField pipeline name documents).vocabulary ↔
      ∃ d ∈ documents, ∃ text, d.field? name = some text ∧
        ∃ t ∈ pipeline.analyze text, t.text = term := by
  rw [← posting?_builtField_isSome_iff hnodup]
  exact SortedMap.mem_keys_iff

section Document

variable {name : String} {d : Document} (hd : d ∈ documents)
  (hfits : FitsCounters (fieldTokens pipeline d name))

include hd hfits

theorem frequency_builtField {term : String} {o : Occurrences}
    (ho : (builtField pipeline name documents).occurrences? term d.reference = some o) :
    o.frequency.toNat = (Token.positionsOf term (fieldTokens pipeline d name)).length := by
  obtain ⟨-, rfl⟩ := (occurrences?_builtField hnodup hd).1 ho
  exact UInt32.toNat_ofNat_of_lt' (hfits.length_positionsOf_lt term)

theorem positions_builtField {term : String} {o : Occurrences}
    (ho : (builtField pipeline name documents).occurrences? term d.reference = some o) :
    o.positions.map (·.toNat) = Token.positionsOf term (fieldTokens pipeline d name) := by
  obtain ⟨-, rfl⟩ := (occurrences?_builtField hnodup hd).1 ho
  rw [List.map_map]
  refine (List.map_congr_left fun n hn => ?_).trans (List.map_id _)
  exact UInt32.toNat_ofNat_of_lt' (hfits.lt_of_mem_positionsOf hn)

theorem length?_builtField :
    ∃ n, (builtField pipeline name documents).length? d.reference = some n ∧
      n.toNat = (fieldTokens pipeline d name).length := by
  refine ⟨UInt32.ofNat (fieldTokens pipeline d name).length, ?_,
    UInt32.toNat_ofNat_of_lt' hfits.1⟩
  rw [(records_builtField pipeline hnodup name).lengths, lookup_fieldDocuments hnodup hd,
    Option.map_some]

/-- The frequencies of all terms in a document add up to the number of its tokens. -/
theorem sum_frequencies_builtField :
    ((builtField pipeline name documents).vocabulary.map fun term =>
      (((builtField pipeline name documents).occurrences? term d.reference).map
        fun o => o.frequency.toNat).getD 0).sum = (fieldTokens pipeline d name).length := by
  have hterms (t : Token) (ht : t ∈ fieldTokens pipeline d name) :
      t.text ∈ (builtField pipeline name documents).vocabulary :=
    (mem_vocabulary_builtField hnodup).2 ⟨d, hd, exists_mem_fieldTokens_iff.1 ⟨t, ht, rfl⟩⟩
  rw [← Token.sum_length_positionsOf (SortedMap.nodup_keys _) hterms]
  congr 1
  refine List.map_congr_left fun term _ => ?_
  cases ho : (builtField pipeline name documents).occurrences? term d.reference with
  | none =>
    have hnil : Token.positionsOf term (fieldTokens pipeline d name) = [] := by
      by_contra hne
      have hsome := (occurrences?_builtField hnodup hd).2 ⟨hne, rfl⟩
      rw [ho] at hsome
      cases hsome
    rw [hnil]
    rfl
  | some o => exact frequency_builtField hnodup hd hfits ho

end Document

/-- **The index of a field loses and duplicates nothing,** as far as its counters reach. -/
theorem fieldContents_builtField (pipeline : Pipeline) (name : String)
    (hfits : ∀ d ∈ documents, ∀ text, d.field? name = some text →
      FitsCounters (pipeline.analyze text)) :
    FieldContents pipeline documents name (builtField pipeline name documents) := by
  have hrecords := records_builtField pipeline hnodup name
  have hcounters (d : Document) (hd : d ∈ documents) :
      FitsCounters (fieldTokens pipeline d name) := fitsCounters_fieldTokens (hfits d hd)
  refine {
    posting := posting?_builtField_isSome_iff hnodup name
    idf := fun term p hp => ?idf
    listed := fun term d hd => occurrences?_builtField_isSome_iff hnodup hd
    document := fun term r o ho => exists_document_of_occurrences? hnodup ho
    positions := fun term d hd text htext o ho => ?positions
    frequency := fun term d hd text htext o ho => ?frequency
    length := fun d hd => ?length
    lengthDocument := fun r n hn => ?lengthDocument
    total := ?total
    frequencies := fun d hd => ?frequencies }
  case idf =>
    simp only [← any_fieldTokens]
    exact idf_builtField hnodup hp
  case positions =>
    rw [← fieldTokens_of_field? htext]
    exact positions_builtField hnodup hd (hcounters d hd) ho
  case frequency =>
    rw [← fieldTokens_of_field? htext]
    exact frequency_builtField hnodup hd (hcounters d hd) ho
  case length =>
    rw [← length_fieldTokens]
    exact length?_builtField hnodup hd (hcounters d hd)
  case frequencies =>
    rw [← length_fieldTokens]
    exact sum_frequencies_builtField hnodup hd (hcounters d hd)
  case lengthDocument =>
    rw [hrecords.lengths, Option.map_eq_some_iff] at hn
    obtain ⟨tokens, htokens, -⟩ := hn
    exact exists_document_of_lookup hnodup htokens
  case total =>
    rw [hrecords.total, fieldDocuments, List.map_map]
    congr 2
    refine List.map_congr_left fun d hd => ?_
    rw [← length_fieldTokens]
    exact UInt32.toNat_ofNat_of_lt' (hcounters d hd).1

end Contents

/-- **The vocabulary of a built index holds the tokens of the texts.** -/
theorem mem_vocabulary_build_iff {documents : List Document} (hnames : config.fieldNames.Nodup)
    (hnodup : (documents.map (·.reference)).Nodup) {name : String} {f : FieldIndex}
    (hf : (build config pipeline documents).field? name = some f) {term : String} :
    term ∈ f.vocabulary ↔ ∃ d ∈ documents, ∃ text, d.field? name = some text ∧
      ∃ t ∈ pipeline.analyze text, t.text = term := by
  rw [field?_build hnames] at hf
  obtain ⟨-, heq⟩ := Option.ite_none_right_eq_some.1 hf
  rw [← Option.some.inj heq, mem_vocabulary_builtField hnodup]

/-- Positions fit into the index in their order, and they ascend if the tokenizer follows a pattern
and built-in filters leave its numbers alone. -/
theorem FieldContents.pairwise_positions {documents : List Document} {name : String}
    {f : FieldIndex} (h : FieldContents pipeline documents name f)
    (htokenizer : ∃ source segments e, pipeline.tokenizer = .ofSegments source segments e)
    (hfilters : ∀ g ∈ pipeline.filters, g.IsBuiltIn) {term r : String} {o : Occurrences}
    (ho : f.occurrences? term r = some o) : o.positions.Pairwise (· < ·) := by
  obtain ⟨d, hd, rfl⟩ := h.document term r o ho
  obtain ⟨text, htext, -⟩ := (h.listed term d hd).1 ⟨o, ho⟩
  have hascending := Pipeline.pairwise_position_analyze htokenizer hfilters text
  have hpositions := h.positions term d hd text htext o ho
  have hpairwise : (o.positions.map (·.toNat)).Pairwise (· < ·) := by
    rw [hpositions, Token.positionsOf]
    exact List.pairwise_map.2 (hascending.filter _)
  exact (List.pairwise_map.1 hpairwise).imp fun hlt => UInt32.lt_iff_toNat_lt.2 hlt

end InvertedIndex

open InvertedIndex in
/-- **An index that is built loses and duplicates nothing.** If the configuration is usable, no
document is refused, and the tokens of each text fit the counters, then there is an index, its
fields are the configured ones, and each of them tells exactly which tokens the texts of the
documents have in it. The positions of a term ascend if the tokenizer follows a pattern, in whatever
language, and the filters are built in. -/
theorem Index.build_contents (config : Config) (pipeline : Pipeline) (documents : List Document)
    (hconfig : config.validate = .ok ())
    (hdocuments : ((IndexBuilder.new config pipeline).addAll documents).2 = none)
    (hfits : ∀ d ∈ documents, ∀ name ∈ config.fieldNames, ∀ text, d.field? name = some text →
      FitsCounters (pipeline.analyze text)) :
    ∃ index, Index.build config pipeline documents = .ok index ∧
      index.config = config ∧ index.pipeline = pipeline ∧
      index.documentCount = UInt64.ofNat documents.length ∧
      (∀ name, name ∉ config.fieldNames → index.inverted.field? name = none) ∧
      ∀ name ∈ config.fieldNames, ∃ f, index.inverted.field? name = some f ∧
        FieldContents pipeline documents name f ∧
        ((∃ source segments e, pipeline.tokenizer = .ofSegments source segments e) →
          (∀ g ∈ pipeline.filters, g.IsBuiltIn) →
          ∀ term r o, f.occurrences? term r = some o → o.positions.Pairwise (· < ·)) := by
  have hnames : config.fieldNames.Nodup := (Config.validate_eq_ok_iff.1 hconfig).nodup
  have hnodup := IndexBuilder.nodup_references hdocuments
  refine ⟨⟨.build config pipeline documents, pipeline⟩,
    Index.build_eq_ok_iff.2 ⟨hdocuments, hconfig, rfl⟩, config_build documents, rfl, rfl,
    fun name hname => ?_, fun name hname => ?_⟩
  · rw [field?_build hnames, if_neg hname]
  · have hcontents := fieldContents_builtField hnodup pipeline name fun d hd =>
      hfits d hd name hname
    refine ⟨builtField pipeline name documents, ?_, hcontents, ?_⟩
    · rw [field?_build hnames, if_pos hname]
    · intro htokenizer hfilters term r o ho
      exact hcontents.pairwise_positions htokenizer hfilters ho

/-- A configuration with one field. -/
def Sample.config : Config := ⟨"id", [⟨"body", .one, false⟩], .half⟩

/-- Two documents, one of them without text. -/
def Sample.documents : List Document :=
  [⟨"a", .ofList [("body", "Green tea, green leaves")]⟩, ⟨"b", .empty⟩]

theorem Index.build_contents_sample :
    ∃ index, Index.build Sample.config .english Sample.documents = .ok index ∧
      index.documentCount = 2 ∧ ∃ f, index.inverted.field? "body" = some f ∧
        InvertedIndex.FieldContents .english Sample.documents "body" f := by
  have hfits : ∀ d ∈ Sample.documents, ∀ name ∈ Sample.config.fieldNames,
      ∀ text ∈ d.field? name, InvertedIndex.FitsCounters (Pipeline.english.analyze text) := by
    decide +kernel
  obtain ⟨index, hbuild, -, -, hcount, -, hfields⟩ :=
    Index.build_contents Sample.config .english Sample.documents rfl rfl hfits
  obtain ⟨f, hf, hcontents, -⟩ := hfields "body" (by decide)
  exact ⟨index, hbuild, hcount, f, hf, hcontents⟩

end FullText
