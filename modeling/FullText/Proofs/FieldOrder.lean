import FullText.Proofs.DocumentOrder
import FullText.Proofs.FoundDocuments

/-!
# The order of field declarations

A search asks the configuration for a field by its name, and it walks over all fields only to put
the matches into a set. So two indexes that look up the same under every name answer every query
alike, with the same errors and with the same sums in the same order. An index that is built with
the fields declared in another order is of this kind, and documents may come in another order too.

## Main definitions

* `Config.Alike`, `InvertedIndex.Alike` : configurations and indexes with the same lookups.

## Main results

* `Clause.parseQuery_alike` : queries are read alike.
* `InvertedIndex.expand_alike`, `InvertedIndex.rank_alike` : clauses are expanded and ranked alike.
* `Index.search_alike` : queries are answered alike.
* `Index.build_of_perm` : **the orders of documents and of fields do not matter to a search.**
-/

namespace FullText

namespace Config

/-- Whether two configurations look up the same fields and weigh lengths alike. -/
structure Alike (c d : Config) : Prop where
  /-- The same field is found under every name. -/
  field : ∀ name, c.field? name = d.field? name
  /-- Lengths are normalized alike. -/
  normalization : c.lengthNormalization = d.lengthNormalization

variable {c d : Config}

theorem field?_eq_some_iff (hnodup : c.fieldNames.Nodup) {name : String} {f : FieldConfig} :
    c.field? name = some f ↔ f ∈ c.fields ∧ f.name = name := by
  constructor
  · intro h
    exact ⟨List.mem_of_find?_eq_some h, by simpa using List.find?_some h⟩
  · rintro ⟨hf, rfl⟩
    have hsome : (c.field? f.name).isSome = true := by
      rw [field?, List.find?_isSome]
      exact ⟨f, hf, by simp⟩
    obtain ⟨g, hg⟩ := Option.isSome_iff_exists.1 hsome
    have hname : g.name = f.name := by simpa using List.find?_some hg
    rw [hg, List.inj_on_of_nodup_map hnodup (List.mem_of_find?_eq_some hg) hf hname]

theorem mem_fieldNames_iff {name : String} :
    name ∈ c.fieldNames ↔ ∃ f, c.field? name = some f := by
  rw [← Option.isSome_iff_exists, field?, List.find?_isSome, fieldNames, List.mem_map]
  simp

theorem Alike.mem_fieldNames_iff (h : c.Alike d) {name : String} :
    name ∈ c.fieldNames ↔ name ∈ d.fieldNames := by
  rw [Config.mem_fieldNames_iff, Config.mem_fieldNames_iff, h.field]

/-- Fields may be declared in another order. -/
theorem alike_of_perm (hnodup : c.fieldNames.Nodup) {fields : List FieldConfig}
    (hperm : fields.Perm c.fields) : { c with fields }.Alike c where
  field name := by
    have hnodup' : { c with fields }.fieldNames.Nodup := (hperm.map _).nodup_iff.2 hnodup
    refine Option.ext fun f => ?_
    rw [field?_eq_some_iff hnodup, field?_eq_some_iff hnodup', hperm.mem_iff]
  normalization := rfl

theorem Usable.of_perm (h : c.Usable) {fields : List FieldConfig} (hperm : fields.Perm c.fields) :
    { c with fields }.Usable where
  reference := h.reference
  nonempty hnil := h.nonempty (by simpa [show fields = [] from hnil] using hperm.symm)
  fields f hf := h.fields f (hperm.mem_iff.1 hf)
  nodup := (hperm.map _).nodup_iff.2 h.nodup
  least := h.least
  greatest := h.greatest

end Config

/-! ### Queries -/

namespace Clause

variable {c d : Config}

theorem fault?_alike (h : c.Alike d) (clause : Clause) : clause.fault? c = clause.fault? d := by
  simp only [fault?, h.field]

theorem validate_alike (h : c.Alike d) (clause : Clause) :
    clause.validate c = clause.validate d := by
  rw [validate, validate, fault?_alike h]

theorem parseWords_alike (h : c.Alike d) (words : List String) :
    parseWords c words = parseWords d words := by
  induction words with
  | nil => rfl
  | cons word rest ih =>
    have hword : parse c word = parse d word := by
      simp only [parse, fault?_alike h]
    rw [parseWords, parseWords, hword, ih]

theorem parseQuery_alike (h : c.Alike d) (query : String) :
    parseQuery c query = parseQuery d query := parseWords_alike h _

end Clause

/-! ### Searches -/

namespace InvertedIndex

/-- Whether two indexes look up the same under every name. -/
structure Alike (i j : InvertedIndex) : Prop where
  /-- The configurations look up the same. -/
  config : i.config.Alike j.config
  /-- The same index of a field is found under every name. -/
  field : ∀ name, i.field? name = j.field? name

variable {i j : InvertedIndex}

theorem expand_alike (h : i.Alike j) (c : Clause) : i.expand c = j.expand c := by
  have hfound (filter : TermFilter) : SortedSet.ofElements (i.matchesOf c filter) =
      SortedSet.ofElements (j.matchesOf c filter) :=
    SortedSet.ext_mem fun m => by
      simp only [SortedSet.mem_toList_ofElements, mem_matchesOf_iff, mem_scope_iff, h.field,
        h.config.mem_fieldNames_iff]
  simp only [expand, hfound]

theorem hits_alike (h : i.Alike j) (es : List Expansion) : i.hits es = j.hits es := by
  have hcontribution (c : Clause) (field : String) (f : FieldIndex) (p : Posting) (r : String)
      (o : Occurrences) : i.contribution c field f p r o = j.contribution c field f p r o := by
    simp only [contribution, fieldBoost, norm, h.config.field, h.config.normalization]
  have hmatch (n : Nat) (c : Clause) : i.hitsOfMatch n c = j.hitsOfMatch n c := funext fun m => by
    simp only [hitsOfMatch, h.field, hcontribution]
  have hexpansion : i.hitsOfExpansion = j.hitsOfExpansion := funext fun e => by
    rw [hitsOfExpansion, hitsOfExpansion, hmatch]
  rw [hits, hits, hexpansion]

theorem rank_alike (h : i.Alike j) (es : List Expansion) : i.rank es = j.rank es := by
  simp only [rank, results, hits_alike h]

end InvertedIndex

namespace Index

variable {i j : Index}

theorem expandAll_alike (hpipeline : i.pipeline = j.pipeline) (h : i.inverted.Alike j.inverted)
    (cs : List Clause) : i.expandAll cs = j.expandAll cs := by
  have hclause (c : Clause) : i.expandClause c = j.expandClause c := by
    have hone : i.expandOne = j.expandOne := funext fun c => by
      rw [expandOne, expandOne, InvertedIndex.expand_alike h]
    have hnormalize : i.normalize c = j.normalize c := by
      rw [normalize, normalize, hpipeline]
    rw [expandClause, expandClause, config, config, Clause.validate_alike h.config, hnormalize,
      hone]
  induction cs with
  | nil => rfl
  | cons c rest ih => rw [expandAll, expandAll, hclause, ih]

theorem query_alike (hpipeline : i.pipeline = j.pipeline) (h : i.inverted.Alike j.inverted)
    (cs : List Clause) : i.query cs = j.query cs := by
  have hrank : i.inverted.rank = j.inverted.rank := funext (InvertedIndex.rank_alike h)
  rw [query, query, expandAll_alike hpipeline h, hrank]

/-- **Indexes that look up the same answer queries alike.** -/
theorem search_alike (hpipeline : i.pipeline = j.pipeline) (h : i.inverted.Alike j.inverted)
    (query : String) : i.search query = j.search query := by
  have hquery : i.query = j.query := funext (query_alike hpipeline h)
  rw [search, search, parse, parse, config, config, Clause.parseQuery_alike h.config, hquery]

end Index

/-! ### Building -/

theorem IndexBuilder.addAll_of_perm {config : Config} {pipeline : Pipeline}
    {documents documents' : List Document} (hdocuments : documents'.Perm documents)
    {fields' : List FieldConfig} (hfields : fields'.Perm config.fields)
    (haccepted : ((new config pipeline).addAll documents).2 = none) :
    ((new { config with fields := fields' } pipeline).addAll documents').2 = none := by
  obtain ⟨hwhole, hnodup⟩ := addAll_new_eq_none_iff.1 haccepted
  refine addAll_new_eq_none_iff.2 ⟨fun d hd => ?_, (hdocuments.map _).nodup_iff.2 hnodup⟩
  obtain ⟨hnamed, hmissing⟩ := hwhole d (hdocuments.mem_iff.1 hd)
  rw [missingField?_eq_none_iff] at hmissing ⊢
  exact ⟨hnamed, fun f hf => hmissing f (hfields.mem_iff.1 hf)⟩

/-- Built indexes are alike if the documents and the fields are the same in some order. -/
theorem InvertedIndex.build_alike {config : Config} (pipeline : Pipeline)
    {documents documents' : List Document} (hnames : config.fieldNames.Nodup)
    (hnodup : (documents.map (·.reference)).Nodup) (hdocuments : documents'.Perm documents)
    {fields' : List FieldConfig} (hfields : fields'.Perm config.fields) :
    (build { config with fields := fields' } pipeline documents').Alike
      (build config pipeline documents) where
  config := by
    rw [config_build, config_build]
    exact Config.alike_of_perm hnames hfields
  field name := by
    have hnames' : { config with fields := fields' }.fieldNames.Nodup :=
      (hfields.map _).nodup_iff.2 hnames
    simp only [field?_build hnames, field?_build hnames',
      (Config.alike_of_perm hnames hfields).mem_fieldNames_iff,
      builtField_eq_of_perm hdocuments hnodup]

open InvertedIndex in
/-- **The orders of documents and of fields do not matter to a search.** If there is an index of
some documents, then there is one of them in any other order and with the fields declared in any
other order. If only the documents are in another order it is the same index. If the fields are
too, it answers every query and every list of clauses alike, be it with results or with an
error. -/
theorem Index.build_of_perm (config : Config) (pipeline : Pipeline) (documents : List Document)
    (index : Index) (hbuild : Index.build config pipeline documents = .ok index)
    (documents' : List Document) (hdocuments : documents'.Perm documents)
    (fields' : List FieldConfig) (hfields : fields'.Perm config.fields) :
    Index.build config pipeline documents' = .ok index ∧
    ∃ index', Index.build { config with fields := fields' } pipeline documents' = .ok index' ∧
      (∀ query, index'.search query = index.search query) ∧
      ∀ cs, index'.query cs = index.query cs := by
  obtain ⟨haccepted, hvalid, rfl⟩ := Index.build_eq_ok_iff.1 hbuild
  have husable := Config.validate_eq_ok_iff.1 hvalid
  have hnodup := IndexBuilder.nodup_references haccepted
  refine ⟨Index.build_eq_ok_iff.2 ⟨?_, hvalid, ?_⟩, _, Index.build_eq_ok_iff.2 ⟨?_, ?_, rfl⟩, ?_⟩
  · exact IndexBuilder.addAll_of_perm hdocuments (.refl _) haccepted
  · rw [build_eq_of_perm husable.nodup hdocuments hnodup]
  · exact IndexBuilder.addAll_of_perm hdocuments hfields haccepted
  · exact Config.validate_eq_ok_iff.2 (husable.of_perm hfields)
  · have halike := build_alike pipeline husable.nodup hnodup hdocuments hfields
    exact ⟨search_alike rfl halike, query_alike rfl halike⟩

/-- Two fields with different boosts, one of them required. -/
def Sample.fields : List FieldConfig := [⟨"title", .one, false⟩, ⟨"body", .half, true⟩]

/-- Two documents with terms in common. -/
def Sample.teas : List Document :=
  [⟨"a", .ofList [("body", "green tea"), ("title", "Tea")]⟩, ⟨"b", .ofList [("body", "black tea")]⟩]

theorem Index.build_of_perm_sample :
    ∃ index index', Index.build ⟨"id", Sample.fields, .half⟩ .english Sample.teas = .ok index ∧
      Index.build ⟨"id", Sample.fields.reverse, .half⟩ .english Sample.teas.reverse = .ok index' ∧
      index'.search "green tea" = index.search "green tea" := by
  have hbuild : Index.build ⟨"id", Sample.fields, .half⟩ .english Sample.teas = .ok _ :=
    Index.build_eq_ok_iff.2 ⟨rfl, rfl, rfl⟩
  obtain ⟨-, index', hbuild', hsearch, -⟩ := Index.build_of_perm _ _ _ _ hbuild
    _ (List.reverse_perm _) _ (List.reverse_perm _)
  exact ⟨_, index', hbuild, hbuild', hsearch _⟩

end FullText
