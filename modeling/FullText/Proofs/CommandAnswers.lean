import FullText.Proofs.CommandFrames
import FullText.Proofs.SnapshotFiles

/-!
# Commands answer as the index does

A command that builds an index makes a configuration of its words, reads documents with it, and
writes the index of these documents to a file. As long as that file is read as it was written, the
commands that look up a query or show the numbers of the index in it tell what the index in memory
would tell: the file is read back in the format in which it was written, it passes all checks, and
what a query finds is cut off at the limit and freed of the matches of each field, but not changed.

## Main definitions

* `IndexCommand.describedConfig` : the configuration that the words of a command describe.
* `SearchReport.Shows` : the reports that show the results of a query.
* `SearchCommand.Answers` : the commands that answer a query as an index does.

## Main results

* `markRequired_eq_ok_iff` : which fields are marked as required.
* `IndexCommand.config_eq_ok_iff`, `IndexCommand.documents_eq_ok_iff` : which configuration and
  which documents a command comes to.
* `loadIndex_fileContents` : an index is loaded from the file that was written of it.
* `IndexCommand.answers_as_built` : the commands answer as the index does.
-/

namespace FullText

/-! ### The words of a command -/

/-- The field, required if it is so already or if its name is among the given ones. -/
def FieldConfig.requiredAmong (names : List String) (f : FieldConfig) : FieldConfig :=
  { f with required := f.required || decide (f.name ∈ names) }

theorem FieldConfig.requiredAmong_nil : requiredAmong [] = id := by
  funext f
  simp [requiredAmong]

/-- The fields are marked whose names are given, and all of these must be names of fields. -/
theorem markRequired_eq_ok_iff {fields marked : List FieldConfig} {names : List String} :
    markRequired fields names = .ok marked ↔ (∀ name ∈ names, name ∈ fields.map (·.name)) ∧
      marked = fields.map (FieldConfig.requiredAmong names) := by
  induction names generalizing fields with
  | nil => simp [markRequired, FieldConfig.requiredAmong_nil, eq_comm]
  | cons name names ih =>
    rw [markRequired, List.forall_mem_cons]
    by_cases hname : name ∈ fields.map (·.name)
    · have hany : fields.any (fun f => f.name = name) = true := by simpa using hname
      have hnames : (fields.map fun f =>
          if f.name = name then { f with required := true } else f).map (·.name) =
          fields.map (·.name) := by
        rw [List.map_map]
        refine List.map_congr_left fun f _ => ?_
        by_cases hf : f.name = name <;> simp [hf]
      have hmarked : (fields.map fun f =>
          if f.name = name then { f with required := true } else f).map
            (FieldConfig.requiredAmong names) =
          fields.map (FieldConfig.requiredAmong (name :: names)) := by
        rw [List.map_map]
        refine List.map_congr_left fun f _ => ?_
        by_cases hf : f.name = name <;> simp [FieldConfig.requiredAmong, hf]
      rw [if_pos hany, ih, hnames, hmarked]
      simp only [hname, true_and]
    · have hany : ¬ fields.any (fun f => f.name = name) = true := by simpa using hname
      rw [if_neg hany]
      simp [hname]

namespace IndexCommand

variable {c : IndexCommand} {store : FileStore} {config : Config}

/-- The configuration that the words of a command describe, whether it can be used or not. -/
def describedConfig (c : IndexCommand) : Config :=
  ⟨c.referenceField, c.fields.map (FieldConfig.requiredAmong c.required), c.lengthNormalization⟩

/-- A command comes to the configuration that it describes, if that can be used and all names of
required fields are names of fields. -/
theorem config_eq_ok_iff : c.config = .ok config ↔
    (∀ name ∈ c.required, name ∈ c.fields.map (·.name)) ∧ c.describedConfig.Usable ∧
      config = c.describedConfig := by
  have hdescribed : Config.mk c.referenceField
      (c.fields.map (FieldConfig.requiredAmong c.required)) c.lengthNormalization =
        c.describedConfig := rfl
  rw [IndexCommand.config, ← Config.fault?_eq_none_iff]
  cases hmark : markRequired c.fields c.required with
  | error f =>
    refine iff_of_false (by rintro ⟨⟩) fun ⟨hnames, _, _⟩ => ?_
    rw [markRequired_eq_ok_iff.2 ⟨hnames, rfl⟩] at hmark
    cases hmark
  | ok marked =>
    obtain ⟨hnames, rfl⟩ := markRequired_eq_ok_iff.1 hmark
    simp only [bind, Except.bind, hdescribed]
    cases c.describedConfig.fault? with
    | some fault => simp
    | none =>
      exact ⟨fun h => ⟨hnames, rfl, (Except.ok.inj h).symm⟩, fun h => congrArg _ h.2.2.symm⟩

/-- A command reads the documents in its file. -/
theorem documents_eq_ok_iff {ds : List Document} : c.documents store config = .ok ds ↔
    ∃ text, store.readText c.file = .ok text ∧
      Document.parseMany text config.referenceField = .ok ds := by
  rw [documents]
  cases store.readText c.file with
  | error fault => simp
  | ok text =>
    cases hparse : Document.parseMany text config.referenceField with
    | error e => simp [hparse]
    | ok ds' => simp [hparse]

end IndexCommand

/-! ### Loading an index -/

section Loading

variable {store : FileStore} {path : String} {index : Index}

/-- An index is loaded from the file that was written of it. -/
theorem loadIndex_fileContents (hread : store.read path = .ok (index.fileContents path))
    (hpipeline : index.pipeline = .english) (hstorable : index.Storable)
    (hmemory : (index.fileContents path).length < UInt64.size) :
    (loadIndex store path).2 = .ok index := by
  have hcontents := Snapshot.ofFileContents_fileContents hstorable.finite hmemory
  have hrestore := Index.restore_ofIndex hstorable.consistent
  rw [hpipeline] at hrestore
  rw [loadIndex, hread]
  simp only [hcontents, hrestore]

/-- A query is looked up in the index that is loaded. -/
theorem result_execute_search {c : SearchCommand}
    (hload : (loadIndex store c.index).2 = .ok index) :
    (c.execute store).result =
      ((index.search c.query).map fun results => .found (searchReport c results)).mapError
        .other := by
  rw [SearchCommand.execute]
  split
  · next hfailed =>
    rw [hfailed] at hload
    cases hload
  · next hloaded =>
    rw [hloaded] at hload
    obtain rfl := Except.ok.inj hload
    cases hsearch : Index.search _ c.query <;> simp [Except.map, Except.mapError]

/-- The numbers of the index that is loaded are shown. -/
theorem result_executeStats (hload : (loadIndex store path).2 = .ok index) :
    (executeStats path store).result = .ok (.stats index.stats) := by
  rw [executeStats]
  split
  · next hfailed =>
    rw [hfailed] at hload
    cases hload
  · next hloaded =>
    rw [hloaded] at hload
    obtain rfl := Except.ok.inj hload
    rfl

end Loading

/-! ### Reports on queries -/

/-- A hit shows a result: all of it if matches are explained, and all but the matches of each field
if they are not. -/
structure SearchResult.ShownAs (explain : Bool) (result hit : SearchResult) : Prop where
  /-- The document is the same. -/
  reference : hit.reference = result.reference
  /-- The score is the same. -/
  score : hit.score = result.score
  /-- The terms are the same. -/
  terms : hit.matchData.terms = result.matchData.terms
  /-- The matches of each field are the same, or left out. -/
  fields : hit.matchData.fields = if explain then result.matchData.fields else .empty

/-- A report shows the results of a query: it counts them and shows the first of them, as many as
the limit allows. -/
structure SearchReport.Shows (r : SearchReport) (c : SearchCommand)
    (results : List SearchResult) : Prop where
  /-- The query is the one that was looked up. -/
  query : r.query = c.query
  /-- All results are counted. -/
  totalHits : r.totalHits = results.length
  /-- As many results are shown as the limit allows. -/
  length_hits : r.hits.length = min c.limit r.totalHits
  /-- The first results are shown, one after the other. -/
  hits : List.Forall₂ (SearchResult.ShownAs c.explain) (results.take c.limit) r.hits

theorem hits_searchReport (c : SearchCommand) (results : List SearchResult) :
    (searchReport c results).hits =
      (results.take c.limit).map fun r => if c.explain then r else r.withoutFields := by
  rw [searchReport]
  cases c.explain <;> simp

theorem searchReport_shows (c : SearchCommand) (results : List SearchResult) :
    (searchReport c results).Shows c results := by
  refine ⟨rfl, rfl, ?_, ?_⟩
  · rw [hits_searchReport, List.length_map, List.length_take]
    rfl
  · rw [hits_searchReport, List.forall₂_map_right_iff, List.forall₂_same]
    intro r _
    cases c.explain <;> exact ⟨rfl, rfl, rfl, rfl⟩

/-- A command answers a query as an index does: it succeeds exactly if the index has an answer, and
then it shows the results; otherwise it fails with the error of the index. -/
structure SearchCommand.Answers (c : SearchCommand) (store : FileStore) (index : Index) : Prop where
  /-- The command succeeds exactly if the index has an answer. -/
  succeeds : (∃ r, (c.execute store).result = .ok r) ↔ ∃ results, index.search c.query = .ok results
  /-- The results are shown. -/
  found : ∀ results, index.search c.query = .ok results →
    ∃ r, (c.execute store).result = .ok (.found r) ∧ r.Shows c results
  /-- The error is the one of the index. -/
  refused : ∀ e, index.search c.query = .error e → (c.execute store).result = .error (.other e)

theorem SearchCommand.answers {c : SearchCommand} {store : FileStore} {index : Index}
    (hload : (loadIndex store c.index).2 = .ok index) : c.Answers store index := by
  have hresult := result_execute_search hload
  cases hsearch : index.search c.query with
  | error e =>
    rw [hsearch] at hresult
    refine ⟨?_, ?_, ?_⟩
    · rw [hresult, hsearch]
      simp [Except.map, Except.mapError]
    · intro results hfound
      rw [hsearch] at hfound
      cases hfound
    · intro e' he
      rw [hsearch] at he
      obtain rfl := Except.error.inj he
      exact hresult
  | ok results =>
    rw [hsearch] at hresult
    refine ⟨⟨fun _ => ⟨results, hsearch⟩, fun _ => ⟨_, hresult⟩⟩, ?_, ?_⟩
    · intro results' hfound
      rw [hsearch] at hfound
      obtain rfl := Except.ok.inj hfound
      exact ⟨_, hresult, searchReport_shows c results⟩
    · intro e he
      rw [hsearch] at he
      cases he

/-! ### From documents to answers -/

/-- **Commands answer as the index does.** A command that builds an index succeeds only on a text of
documents from which the index can be built in memory, with the configuration that the words of the
command describe. If the size of its file is a number of 64 bits, and as long as the file is read as
it was written, every query is answered as this index answers it, and the numbers that are shown are
the numbers of this index. -/
theorem IndexCommand.answers_as_built {c : IndexCommand} {store : FileStore} {report : BuildReport}
    (hresult : (c.execute store).result = .ok (.built report))
    (hmemory : report.snapshotBytes < UInt64.size) :
    ∃ text documents index,
      store.readText c.file = .ok text ∧
      Document.parseMany text c.referenceField = .ok documents ∧
      Index.build c.describedConfig .english documents = .ok index ∧
      ∀ later : FileStore, later.read c.output = (c.execute store).store.read c.output →
        (∀ s : SearchCommand, s.index = c.output → s.Answers later index) ∧
        (executeStats c.output later).result = .ok (.stats index.stats) := by
  rcases c.execute_cases store with ⟨f, hfailed, -⟩ | ⟨config, ds, index, hbuilds, hwrite, hbuilt⟩
  · rw [hresult] at hfailed
    cases hfailed
  · rw [hresult] at hbuilt
    obtain rfl : report = buildReport c index _ := Report.built.inj (Except.ok.inj hbuilt)
    obtain ⟨-, -, rfl⟩ := config_eq_ok_iff.1 hbuilds.configured
    obtain ⟨text, htext, hparse⟩ := documents_eq_ok_iff.1 hbuilds.read
    have hstorable := Index.storable_of_build hbuilds.built hmemory
    have hpipeline : index.pipeline = .english := by
      obtain ⟨-, -, rfl⟩ := Index.build_eq_ok_iff.1 hbuilds.built
      rfl
    refine ⟨text, ds, index, htext, hparse, hbuilds.built, fun later hlater => ?_⟩
    have hread : later.read c.output = .ok (index.fileContents c.output) :=
      hlater.trans (FileStore.read_write hwrite)
    have hload := loadIndex_fileContents hread hpipeline hstorable hmemory
    exact ⟨fun s hs => SearchCommand.answers (hs ▸ hload), result_executeStats hload⟩

theorem IndexCommand.answers_as_built_sample :
    ∃ report documents index,
      ((Sample.indexing "docs" "new").execute Sample.files).result = .ok (.built report) ∧
      report.snapshotBytes < UInt64.size ∧
      Index.build ⟨"id", [⟨"body", .one, false⟩], .half⟩ .english documents = .ok index ∧
      SearchCommand.Answers ⟨"new", "green", 10, true⟩
        ((Sample.indexing "docs" "new").execute Sample.files).store index ∧
      (executeStats "new" ((Sample.indexing "docs" "new").execute Sample.files).store).result =
        .ok (.stats index.stats) := by
  have hreport : (match ((Sample.indexing "docs" "new").execute Sample.files).result with
      | .ok (.built report) => decide (report.snapshotBytes < UInt64.size)
      | .ok (.found _) => false
      | .ok (.stats _) => false
      | .error _ => false) = true := by decide +kernel
  rcases hresult : ((Sample.indexing "docs" "new").execute Sample.files).result with
    f | report | found | stats
  · simp [hresult] at hreport
  · rw [hresult] at hreport
    have hmemory : report.snapshotBytes < UInt64.size := of_decide_eq_true hreport
    obtain ⟨-, documents, index, -, -, hbuild, hlater⟩ := answers_as_built hresult hmemory
    obtain ⟨hsearch, hstats⟩ := hlater _ rfl
    exact ⟨report, documents, index, rfl, hmemory, hbuild, hsearch _ rfl, hstats⟩
  · simp [hresult] at hreport
  · simp [hresult] at hreport

end FullText
