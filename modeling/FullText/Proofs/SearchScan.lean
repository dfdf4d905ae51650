import FullText.Index
import FullText.Proofs.EditScripts
import FullText.Proofs.EnglishTokens
import FullText.Proofs.IndexContents
import FullText.Proofs.PatternFolding
import FullText.Proofs.QueryGrammar
import FullText.Proofs.RequiredClauses

/-!
# Searching is scanning

A search goes through vocabularies and postings. What it finds can be told without them: a document
is found if some token of it is what some clause of the query asks for. This is shown for the
pipeline for English text, whose tokens hold no line feed, so that stars have their usual meaning.

## Main definitions

* `Clause.AsksFor` : what a clause asks for, told by the texts alone.
* `Clause.Parsed` : what is known of a clause that was read from a query.

## Main results

* `Index.exists_expandAll` : the matches of a list of clauses.
* `Index.search_finds` : **a search finds what a scan of the documents finds.**
-/

namespace FullText

/-! ### What a clause asks for -/

/-- Whether a clause asks for a text. If its term has stars, the literal runs between them are
turned into lower case and must span the text. Otherwise the text must be a token of the term, or
lead to one by as many edits as the clause allows. -/
def Clause.AsksFor (pipeline : Pipeline) (c : Clause) (text : String) : Prop :=
  if '*' ∈ c.term.toList then
    Glob.Spanned ((Text.splitWhere isStar c.term.toList).map fun run =>
      (Text.lowercase (String.ofList run)).toList) text.toList
  else ∃ u ∈ pipeline.analyze c.term,
    match c.distance with
    | none => text = u.text
    | some d =>
      if d = 0 then text = u.text
      else ∃ n, n ≤ d.toNat ∧ EditDistance.EditedBy n u.text.toList text.toList

namespace Clause

/-- What is known of a clause that was read from a query. -/
structure Parsed (config : Config) (c : Clause) : Prop where
  /-- The clause fits the configuration. -/
  fits : c.validate config = .ok ()
  /-- Where the stars of the term are is told as it is. -/
  stars : c.stars = .classify c.term.toList
  /-- The clause is optional. -/
  optional : c.isRequired = false

theorem parsed_of_mem {config : Config} {query : String} {cs : List Clause}
    (h : parseQuery config query = .ok cs) {c : Clause} (hc : c ∈ cs) : c.Parsed config := by
  have hall := parseWords_eq_ok_iff.1 h
  obtain ⟨word, hword⟩ : ∃ word, parse config word = .ok c := by
    clear h
    generalize Text.words query = words at hall
    induction hall with
    | nil => cases hc
    | @cons word c' words cs hparse _ ih =>
      rcases List.mem_cons.1 hc with rfl | hc
      · exact ⟨word, hparse⟩
      · exact ih hc
  obtain ⟨start, term, modifiers, boost, -, -, -, -, -, hterm, hstars, -, hpresence⟩ :=
    parse_eq_ok_iff.1 hword
  refine ⟨?_, by rw [hterm, String.toList_ofList, hstars], by rw [isRequired, hpresence]; rfl⟩
  rw [parse] at hword
  cases hread : read word.toList with
  | error fault => simp [hread] at hword
  | ok c' =>
    cases hfault : c'.fault? config with
    | some fault => simp [hread, hfault] at hword
    | none =>
      simp only [hread, hfault, Except.ok.injEq] at hword
      rw [validate, ← hword, hfault]

theorem isPattern_withTerm (c : Clause) (term : String) :
    (c.withTerm term).isPattern = true ↔ '*' ∈ term.toList :=
  isPattern_iff (c := c.withTerm term) rfl

end Clause

/-! ### Expansions -/

namespace Index

variable {index : Index}

/-- A match of a list of clauses is a term that the filter of one of them accepts, in a field that
the clause looks at. -/
theorem exists_mapM_expandOne (index : Index) {cs : List Clause}
    (hcs : ∀ c ∈ cs, ∃ filter, TermFilter.ofClause c = .ok filter) :
    ∃ es, cs.mapM index.expandOne = .ok es ∧ (∀ e ∈ es, e.clause ∈ cs) ∧
      ∀ m, (∃ e ∈ es, m ∈ SortedSet.toList e.found) ↔
        ∃ c ∈ cs, ∃ filter, TermFilter.ofClause c = .ok filter ∧
          ∃ f, (m.field, f) ∈ index.inverted.scope c ∧ m.term ∈ f.vocabulary ∧
            filter.accepts m.term = true := by
  induction cs with
  | nil => exact ⟨[], rfl, nofun, by simp⟩
  | cons c cs ih =>
    obtain ⟨filter, hfilter⟩ := hcs c List.mem_cons_self
    obtain ⟨es, hes, hclauses, hmatches⟩ := ih fun d hd => hcs d (List.mem_cons_of_mem _ hd)
    obtain ⟨found, hfound, hmem⟩ := index.inverted.mem_expand_iff hfilter
    have hone : index.expandOne c = .ok ⟨c, found⟩ := by
      rw [expandOne, hfound]
      rfl
    refine ⟨⟨c, found⟩ :: es, ?_, fun e he => ?_, fun m => ?_⟩
    · rw [List.mapM_cons, hone, hes]
      rfl
    · rcases List.mem_cons.1 he with rfl | he
      · exact List.mem_cons_self
      · exact List.mem_cons_of_mem _ (hclauses e he)
    · simp only [List.mem_cons, exists_eq_or_imp, hmatches, hmem, hfilter, Except.ok.injEq,
        exists_eq_left']

/-- The pattern of a parsed clause with stars matches what the clause asks for. -/
theorem accepts_foldPattern_iff {c : Clause} (hstar : '*' ∈ c.term.toList) {g : Glob}
    (hg : Glob.compile (Pipeline.english.foldPattern c.term) = .ok g) {t : String}
    (ht : '\n' ∉ t.toList) : g.accepts t.toList = true ↔ c.AsksFor .english t := by
  rw [Glob.accepts_iff_spanned ht, Glob.chars_of_compile hg, Pipeline.splitWhere_foldPattern,
    Clause.AsksFor, if_pos hstar]
  rfl

/-- The filter of the pattern of a clause. -/
theorem ofClause_foldPattern {c : Clause} (hstar : '*' ∈ c.term.toList) {g : Glob}
    (hg : Glob.compile (Pipeline.english.foldPattern c.term) = .ok g) :
    TermFilter.ofClause (c.withTerm (Pipeline.english.foldPattern c.term)) =
      .ok (.pattern g) := by
  have hpattern := (c.isPattern_withTerm _).2
    ((Pipeline.star_mem_foldPattern_iff .english c.term).2 hstar)
  have hterm : (c.withTerm (Pipeline.english.foldPattern c.term)).term =
    Pipeline.english.foldPattern c.term := rfl
  rw [TermFilter.ofClause, if_pos hpattern, hterm, hg]
  rfl

/-- The filter of a token of a clause without stars accepts what is as near to the token as the
clause asks. -/
theorem ofClause_withTerm {c : Clause} {u : String} (hu : '*' ∉ u.toList) :
    ∃ filter, TermFilter.ofClause (c.withTerm u) = .ok filter ∧ ∀ t,
      filter.accepts t = true ↔ match c.distance with
        | none => t = u
        | some d =>
          if d = 0 then t = u
          else ∃ n, n ≤ d.toNat ∧ EditDistance.EditedBy n u.toList t.toList := by
  have hpattern : (c.withTerm u).isPattern = false :=
    Bool.eq_false_iff.2 (mt (c.isPattern_withTerm u).1 hu)
  have hdistance : (c.withTerm u).distance = c.distance := rfl
  have hterm : (c.withTerm u).term = u := rfl
  rw [TermFilter.ofClause, hpattern, if_neg Bool.false_ne_true, hdistance, hterm]
  cases c.distance with
  | none => exact ⟨.exact u, rfl, fun t => decide_eq_true_iff⟩
  | some d =>
    by_cases hd : d = 0
    · subst hd
      exact ⟨.exact u, rfl, fun t => decide_eq_true_iff⟩
    · have hpos : 0 < d.toNat := Nat.pos_of_ne_zero fun h => hd (UInt32.toNat_inj.1 h)
      refine ⟨.fuzzy u d.toNat, by simp only [if_pos hpos], fun t => ?_⟩
      simp only [if_neg hd]
      exact EditDistance.isWithin_iff

theorem exists_of_mem_normalize {c c' : Clause} (h : c' ∈ index.normalize c) :
    ∃ term, c' = c.withTerm term := by
  rw [normalize] at h
  split at h
  · exact ⟨_, List.mem_singleton.1 h⟩
  · obtain ⟨u, -, rfl⟩ := List.mem_map.1 h
    exact ⟨u.text, rfl⟩

/-- The matches of a parsed clause come from the filters of the clauses that it stands for. -/
theorem exists_expandClause_of_filters {c : Clause} (hc : c.Parsed index.config)
    (hfilters : ∀ c' ∈ index.normalize c, ∃ filter, TermFilter.ofClause c' = .ok filter) :
    ∃ es, index.expandClause c = .ok es ∧ (∀ e ∈ es, e.clause.isRequired = false) ∧
      ∀ m, (∃ e ∈ es, m ∈ SortedSet.toList e.found) ↔
        ∃ f, (m.field, f) ∈ index.inverted.scope c ∧ m.term ∈ f.vocabulary ∧
          ∃ c' ∈ index.normalize c, ∃ filter, TermFilter.ofClause c' = .ok filter ∧
            filter.accepts m.term = true := by
  obtain ⟨es, hes, hclauses, hmatches⟩ := index.exists_mapM_expandOne hfilters
  refine ⟨es, ?_, fun e he => ?_, fun m => (hmatches m).trans ?_⟩
  · rw [expandClause, hc.fits]
    exact hes
  · obtain ⟨term, hterm⟩ := exists_of_mem_normalize (hclauses e he)
    rw [hterm]
    exact hc.optional
  · constructor
    · rintro ⟨c', hc', filter, hok, f, hf, hm, haccepts⟩
      obtain ⟨term, rfl⟩ := exists_of_mem_normalize hc'
      exact ⟨f, hf, hm, _, hc', filter, hok, haccepts⟩
    · rintro ⟨f, hf, hm, c', hc', filter, hok, haccepts⟩
      obtain ⟨term, rfl⟩ := exists_of_mem_normalize hc'
      exact ⟨_, hc', filter, hok, f, hf, hm, haccepts⟩

/-- The matches of a parsed clause are the terms that it asks for, in the fields that it looks
at. -/
theorem exists_expandClause {c : Clause} (hc : c.Parsed index.config)
    (hpipeline : index.pipeline = .english)
    (hcompile : '*' ∈ c.term.toList →
      ∃ g, Glob.compile (Pipeline.english.foldPattern c.term) = .ok g)
    (hlines : ∀ name f, index.inverted.field? name = some f → ∀ t ∈ f.vocabulary, '\n' ∉ t.toList) :
    ∃ es, index.expandClause c = .ok es ∧ (∀ e ∈ es, e.clause.isRequired = false) ∧
      ∀ m, (∃ e ∈ es, m ∈ SortedSet.toList e.found) ↔
        ∃ f, (m.field, f) ∈ index.inverted.scope c ∧ m.term ∈ f.vocabulary ∧
          c.AsksFor .english m.term := by
  by_cases hstar : '*' ∈ c.term.toList
  · obtain ⟨g, hg⟩ := hcompile hstar
    have hnormalize : index.normalize c =
        [c.withTerm (Pipeline.english.foldPattern c.term)] := by
      rw [normalize, if_pos ((Clause.isPattern_iff hc.stars).2 hstar), hpipeline]
    have hfilter := ofClause_foldPattern hstar hg
    obtain ⟨es, hes, hrequired, hmatches⟩ := exists_expandClause_of_filters hc
      (by simp [hnormalize, hfilter])
    refine ⟨es, hes, hrequired, fun m => (hmatches m).trans ?_⟩
    refine exists_congr fun f => and_congr_right fun hf => and_congr_right fun hm => ?_
    simp only [hnormalize, List.mem_singleton, exists_eq_left, hfilter, Except.ok.injEq,
      exists_eq_left']
    exact accepts_foldPattern_iff hstar hg
      (hlines _ f (InvertedIndex.mem_scope_iff.1 hf).2.1 _ hm)
  · have hnormalize : index.normalize c =
        (Pipeline.english.analyze c.term).map fun u => c.withTerm u.text := by
      rw [normalize, if_neg (mt (Clause.isPattern_iff hc.stars).1 hstar), hpipeline]
    have hfilter (u : Token) (hu : u ∈ Pipeline.english.analyze c.term) :=
      ofClause_withTerm (c := c) (Pipeline.star_notMem_english hstar hu)
    have hfilters (c' : Clause) (hc' : c' ∈ index.normalize c) :
        ∃ filter, TermFilter.ofClause c' = .ok filter := by
      rw [hnormalize] at hc'
      obtain ⟨u, hu, rfl⟩ := List.mem_map.1 hc'
      obtain ⟨filter, hok, -⟩ := hfilter u hu
      exact ⟨filter, hok⟩
    obtain ⟨es, hes, hrequired, hmatches⟩ := exists_expandClause_of_filters hc hfilters
    refine ⟨es, hes, hrequired, fun m => (hmatches m).trans ?_⟩
    refine exists_congr fun f => and_congr_right fun hf => and_congr_right fun hm => ?_
    rw [hnormalize, Clause.AsksFor, if_neg hstar]
    constructor
    · rintro ⟨c', hc', filter, hok, haccepts⟩
      obtain ⟨u, hu, rfl⟩ := List.mem_map.1 hc'
      obtain ⟨filter', hok', hiff⟩ := hfilter u hu
      obtain rfl := Except.ok.inj (hok'.symm.trans hok)
      exact ⟨u, hu, (hiff m.term).1 haccepts⟩
    · rintro ⟨u, hu, hnear⟩
      obtain ⟨filter, hok, hiff⟩ := hfilter u hu
      exact ⟨c.withTerm u.text, List.mem_map.2 ⟨u, hu, rfl⟩, filter, hok, (hiff m.term).2 hnear⟩

/-- The matches of a list of parsed clauses. -/
theorem exists_expandAll {cs : List Clause} (hcs : ∀ c ∈ cs, c.Parsed index.config)
    (hpipeline : index.pipeline = .english)
    (hcompile : ∀ c ∈ cs, '*' ∈ c.term.toList →
      ∃ g, Glob.compile (Pipeline.english.foldPattern c.term) = .ok g)
    (hlines : ∀ name f, index.inverted.field? name = some f → ∀ t ∈ f.vocabulary, '\n' ∉ t.toList) :
    ∃ es, index.expandAll cs = .ok es ∧ (∀ e ∈ es, e.clause.isRequired = false) ∧
      ∀ m, (∃ e ∈ es, m ∈ SortedSet.toList e.found) ↔
        ∃ c ∈ cs, ∃ f, (m.field, f) ∈ index.inverted.scope c ∧ m.term ∈ f.vocabulary ∧
          c.AsksFor .english m.term := by
  induction cs with
  | nil => exact ⟨[], rfl, nofun, by simp⟩
  | cons c cs ih =>
    obtain ⟨es, hes, hoptional, hmatches⟩ := exists_expandClause (hcs c List.mem_cons_self)
      hpipeline (hcompile c List.mem_cons_self) hlines
    obtain ⟨others, hothers, hoptional', hmatches'⟩ :=
      ih (fun d hd => hcs d (List.mem_cons_of_mem _ hd))
        fun d hd => hcompile d (List.mem_cons_of_mem _ hd)
    refine ⟨es ++ others, ?_, fun e he => ?_, fun m => ?_⟩
    · rw [expandAll, hes, hothers]
      rfl
    · exact (List.mem_append.1 he).elim (hoptional e) (hoptional' e)
    · simp only [List.mem_append, or_and_right, exists_or, hmatches, hmatches', List.mem_cons,
        exists_eq_left]

/-- **A search for parsed clauses finds each document once that a term leads to which some clause
asks for.** -/
theorem exists_query (index : Index) {cs : List Clause} (hcs : ∀ c ∈ cs, c.Parsed index.config)
    (hpipeline : index.pipeline = .english)
    (hcompile : ∀ c ∈ cs, '*' ∈ c.term.toList →
      ∃ g, Glob.compile (Pipeline.english.foldPattern c.term) = .ok g)
    (hlines : ∀ name f, index.inverted.field? name = some f → ∀ t ∈ f.vocabulary, '\n' ∉ t.toList) :
    ∃ results, index.query cs = .ok results ∧ (results.map (·.reference)).Nodup ∧
      ∀ r, r ∈ results.map (·.reference) ↔
        ∃ m : TermMatch, index.inverted.Lists m r ∧
          ∃ c ∈ cs, ∃ f, (m.field, f) ∈ index.inverted.scope c ∧ m.term ∈ f.vocabulary ∧
            c.AsksFor .english m.term := by
  obtain ⟨es, hes, hoptional, hmatches⟩ := exists_expandAll hcs hpipeline hcompile hlines
  refine ⟨index.inverted.rank es, ?_, InvertedIndex.nodup_references_rank _ es, fun r => ?_⟩
  · rw [query, hes]
    rfl
  · rw [InvertedIndex.mem_references_rank_iff_of_optional hoptional]
    simp only [← hmatches]
    constructor
    · rintro ⟨e, he, m, hm, hlists⟩
      exact ⟨m, hlists, e, he, hm⟩
    · rintro ⟨m, hlists, e, he, hm⟩
      exact ⟨e, he, m, hm, hlists⟩

end Index

/-! ### Built indexes -/

namespace InvertedIndex

variable {config : Config} {pipeline : Pipeline} {documents : List Document}

/-- A match leads to the documents with a token that is the term. -/
theorem lists_build_iff (hnames : config.fieldNames.Nodup)
    (hnodup : (documents.map (·.reference)).Nodup) {m : TermMatch} {r : String} :
    (build config pipeline documents).Lists m r ↔ m.field ∈ config.fieldNames ∧
      ∃ d ∈ documents, d.reference = r ∧ ∃ text, d.field? m.field = some text ∧
        ∃ t ∈ pipeline.analyze text, t.text = m.term := by
  rw [Lists, field?_build hnames]
  by_cases hname : m.field ∈ config.fieldNames
  · rw [if_pos hname]
    simp only [Option.some.injEq, exists_eq_left', hname, true_and]
    constructor
    · rintro ⟨o, ho⟩
      obtain ⟨d, hd, rfl⟩ := exists_document_of_occurrences? hnodup ho
      exact ⟨d, hd, rfl, (occurrences?_builtField_isSome_iff hnodup hd).1 ⟨o, ho⟩⟩
    · rintro ⟨d, hd, rfl, htoken⟩
      exact (occurrences?_builtField_isSome_iff hnodup hd).2 htoken
  · simp [hname]

/-- The terms of English text hold no line feed. -/
theorem lineFeed_notMem_build (hnames : config.fieldNames.Nodup)
    (hnodup : (documents.map (·.reference)).Nodup) {name : String} {f : FieldIndex}
    (hf : (build config .english documents).field? name = some f) {t : String}
    (ht : t ∈ f.vocabulary) : '\n' ∉ t.toList := by
  obtain ⟨d, -, text, -, u, hu, rfl⟩ := (mem_vocabulary_build_iff hnames hnodup hf).1 ht
  exact Pipeline.lineFeed_notMem_english hu

end InvertedIndex

open InvertedIndex in
/-- **A search finds what a scan of the documents finds.** For the pipeline for English text, a
query that can be read and patterns that are not too large, each document is found once whose text,
in a field that some clause looks at, has a token that the clause asks for, and nothing else is
found. -/
theorem Index.search_finds (config : Config) (documents : List Document) (query : String)
    (clauses : List Clause) (hconfig : config.validate = .ok ())
    (hdocuments : ((IndexBuilder.new config .english).addAll documents).2 = none)
    (hquery : Clause.parseQuery config query = .ok clauses)
    (hcompile : ∀ c ∈ clauses, '*' ∈ c.term.toList →
      ∃ g, Glob.compile (Pipeline.english.foldPattern c.term) = .ok g) :
    ∃ index results, Index.build config .english documents = .ok index ∧
      index.search query = .ok results ∧ (results.map (·.reference)).Nodup ∧
      ∀ r, r ∈ results.map (·.reference) ↔ ∃ d ∈ documents, d.reference = r ∧
        ∃ c ∈ clauses, ∃ name ∈ config.fieldNames,
          (∀ wanted, c.field = some wanted → wanted = name) ∧
          ∃ text, d.field? name = some text ∧
            ∃ t ∈ Pipeline.english.analyze text, c.AsksFor .english t.text := by
  have hnames : config.fieldNames.Nodup := (Config.validate_eq_ok_iff.1 hconfig).nodup
  have hnodup := IndexBuilder.nodup_references hdocuments
  let index : Index := ⟨.build config .english documents, .english⟩
  have hindex : index.config = config := config_build documents
  obtain ⟨results, hresults, hunique, hfound⟩ := index.exists_query
    (fun c hc => by rw [hindex]; exact Clause.parsed_of_mem hquery hc) rfl hcompile
    fun name f hf t ht => lineFeed_notMem_build hnames hnodup hf ht
  refine ⟨index, results, Index.build_eq_ok_iff.2 ⟨hdocuments, hconfig, rfl⟩, ?_, hunique,
    fun r => (hfound r).trans ?_⟩
  · rw [search, parse, hindex, hquery]
    exact hresults
  have hscope {c : Clause} {name : String} {f : FieldIndex} :
      (name, f) ∈ index.inverted.scope c ↔ name ∈ config.fieldNames ∧
        f = builtField .english name documents ∧
        ∀ wanted, c.field = some wanted → wanted = name := by
    rw [mem_scope_iff, field?_build hnames, config_build]
    refine and_congr_right fun hname => and_congr_left fun _ => ?_
    rw [if_pos hname, Option.some.injEq, eq_comm]
  simp only [index, lists_build_iff hnames hnodup]
  constructor
  · rintro ⟨m, ⟨hname, d, hd, hr, text, htext, t, ht, hterm⟩, c, hc, f, hf, -, hasks⟩
    refine ⟨d, hd, hr, c, hc, m.field, hname, (hscope.1 hf).2.2, text, htext, t, ht, ?_⟩
    rwa [hterm]
  · rintro ⟨d, hd, hr, c, hc, name, hname, hwanted, text, htext, t, ht, hasks⟩
    refine ⟨⟨name, t.text⟩, ⟨hname, d, hd, hr, text, htext, t, ht, rfl⟩, c, hc,
      builtField .english name documents, hscope.2 ⟨hname, rfl, hwanted⟩, ?_, hasks⟩
    exact (mem_vocabulary_builtField hnodup).2 ⟨d, hd, text, htext, t, ht, rfl⟩

/-- A query with a pattern and a term that comes with an edit distance. -/
def Sample.query : String := "GRE* body:tee~1"

/-- The clauses of the query. -/
def Sample.clauses : List Clause :=
  [.ofTerm "GRE*", { Clause.ofTerm "tee" with field := some "body", distance := some 1 }]

theorem Index.search_finds_sample :
    ∃ index results, Index.build Sample.config .english Sample.documents = .ok index ∧
      index.search Sample.query = .ok results ∧ "a" ∈ results.map (·.reference) := by
  obtain ⟨index, results, hbuild, hsearch, -, hfound⟩ :=
    Index.search_finds Sample.config Sample.documents Sample.query Sample.clauses rfl rfl rfl
      (by
        intro c hc hstar
        rcases List.mem_cons.1 hc with rfl | hc
        · exact ⟨⟨"gre*".toList⟩, rfl⟩
        · obtain rfl := List.mem_singleton.1 hc
          exact absurd hstar (by decide))
  refine ⟨index, results, hbuild, hsearch, (hfound "a").2 ?_⟩
  -- The token `tea` is one edit away from the term `tee`.
  refine ⟨_, List.mem_cons_self, rfl, _, List.mem_cons_of_mem _ List.mem_cons_self, "body",
    List.mem_cons_self, fun wanted hwanted => (Option.some.inj hwanted).symm,
    "Green tea, green leaves", rfl, ⟨"tea", 1, 6, 10⟩, by decide +kernel, ?_⟩
  rw [Clause.AsksFor, if_neg (by decide)]
  exact ⟨⟨"tee", 0, 0, 3⟩, by decide +kernel, 1, Nat.le_refl 1,
    (EditDistance.EditedBy.refl _).edit (.replace ['t', 'e'] 'e' 'a' [])⟩

end FullText
