import FullText.Proofs.CommandAnswers

/-!
# Reports on queries, as text

A report on a query for a reader has one of two forms. Either it says that there are no results, or
it lists them: a line for each result that is shown, with its number, its document, its score and
its terms, and at the end the number of all results. The results are shown in the order in which the
index ranks them, up to the limit.

Which form a report has is told from the results that are shown, not from those that were found. So
a limit of zero makes a report say that there are no results, whatever was found. With any other
limit it says so exactly if nothing was found.

## Main definitions

* `SaysNone` : a text says that there are no results.
* `SearchCommand.Entry` : the lines of one result.
* `SearchCommand.Listing` : a text lists the first results and counts all.

## Main results

* `SearchCommand.listing` : the lines of a report that shows something are a listing.
* `SearchCommand.reports_results` : **what a report on a query says.**
* `SearchCommand.says_none_of_found` : with a limit of zero it says that there are no results
  although there is one.
-/

namespace FullText

/-! ### The forms of a report -/

theorem unlines_cons (l : String) (ls : List String) :
    unlines (l :: ls) = l ++ "\n" ++ unlines ls := by
  rw [unlines, List.map_cons, String.join_cons, unlines]

/-- A text says that there are no results. -/
def SaysNone (query text : String) : Prop := text = "No results for `" ++ query ++ "`\n"

namespace SearchCommand

/-- The lines of a result with its rank, the first rank being one. -/
structure Entry (c : SearchCommand) (verbosity rank : Nat) (r : SearchResult)
    (entry : List String) : Prop where
  /-- First comes a line with the rank, the document, the score and the terms. -/
  line : entry.head? = some (padLeft 3 (writeNat rank) ++ ". " ++ r.reference ++ " (Score: " ++
    r.score.writeFixed 3 ++ ") [" ++ ", ".intercalate (SortedSet.toList r.matchData.terms) ++ "]")
  /-- The matches of each field follow if they are explained and more output is wanted. -/
  details : entry.tail = if 1 < verbosity ∧ c.explain = true then r.detailLines else []

/-- A text lists the first results, as many as the limit allows, with ranks from one on, and counts
all results. -/
structure Listing (c : SearchCommand) (verbosity milliseconds : Nat) (results : List SearchResult)
    (entries : List (List String)) (text : String) : Prop where
  /-- As many results are listed as the limit allows. -/
  length_entries : entries.length = min c.limit results.length
  /-- The first results are listed, one after the other. -/
  ranked : List.Forall₂ (fun ranked entry => c.Entry verbosity ranked.2 ranked.1 entry)
    ((results.take c.limit).zipIdx 1) entries
  /-- The lines of the results stand between a heading and the number of all results. -/
  text : text = unlines (["Search Results:", "═══════════════"] ++ entries.flatten ++
    ["", "Total hits: " ++ writeNat results.length] ++
    if 1 < verbosity then ["Search time: " ++ writeNat milliseconds ++ "ms"] else [])

variable {c : SearchCommand} {results : List SearchResult} (verbosity milliseconds : Nat)

/-! ### Lines of a report -/

/-- The lines of the results that are shown are those of the results that were found. -/
theorem exists_entries (c : SearchCommand) (number : Nat) (results : List SearchResult) :
    ∃ entries, hitLines verbosity number
        (results.map fun r => if c.explain then r else r.withoutFields) = entries.flatten ∧
      List.Forall₂ (fun ranked entry => c.Entry verbosity ranked.2 ranked.1 entry)
        (results.zipIdx number) entries := by
  induction results generalizing number with
  | nil => exact ⟨[], rfl, .nil⟩
  | cons r results ih =>
    obtain ⟨entries, hlines, hentries⟩ := ih (number + 1)
    have hentry : c.Entry verbosity number r
        ((if c.explain then r else r.withoutFields).line number ::
          if 1 < verbosity then (if c.explain then r else r.withoutFields).detailLines
          else []) := by
      cases hexplain : c.explain with
      | true => exact ⟨rfl, by simp [hexplain]⟩
      | false =>
        have hnone : r.withoutFields.detailLines = [] := rfl
        exact ⟨rfl, by simp [hexplain, hnone]⟩
    refine ⟨_ :: entries, ?_, .cons hentry hentries⟩
    rw [List.map_cons, hitLines, hlines, List.flatten_cons]

theorem hits_eq_nil_iff : (searchReport c results).hits = [] ↔ results = [] ∨ c.limit = 0 := by
  rw [hits_searchReport, List.map_eq_nil_iff, List.take_eq_nil_iff, or_comm]

/-- A report that shows nothing says that there are no results. -/
theorem saysNone (h : (searchReport c results).hits = []) :
    SaysNone c.query (unlines ((searchReport c results).lines verbosity milliseconds)) := by
  rw [SaysNone, SearchReport.lines, if_pos (List.isEmpty_iff.2 h), unlines_cons]
  show "No results for `" ++ c.query ++ "`" ++ "\n" ++ "" = _
  rw [String.append_empty, String.append_assoc]
  rfl

/-- **The lines of a report that shows something are a listing.** -/
theorem listing (h : (searchReport c results).hits ≠ []) :
    ∃ entries, c.Listing verbosity milliseconds results entries
      (unlines ((searchReport c results).lines verbosity milliseconds)) := by
  obtain ⟨entries, hlines, hentries⟩ := exists_entries verbosity c 1 (results.take c.limit)
  refine ⟨entries, ?_, hentries, ?_⟩
  · rw [← hentries.length_eq, List.length_zipIdx, List.length_take]
  · rw [SearchReport.lines, if_neg (by rwa [List.isEmpty_iff]), hits_searchReport, hlines]
    rfl

variable {verbosity milliseconds} in
/-- A listing does not say that there are no results: it starts with another letter. -/
theorem Listing.not_saysNone {entries : List (List String)} {text query : String}
    (h : c.Listing verbosity milliseconds results entries text) : ¬ SaysNone query text := by
  intro hnone
  have hhead := congrArg (fun s => s.toList.head?) (h.text.symm.trans hnone)
  simp only [List.cons_append, unlines_cons, String.append_assoc, String.toList_append] at hhead
  exact absurd (Option.some.inj hhead) (by decide)

/-! ### What is printed -/

theorem output_runWords {store : FileStore} {words : List String} {options : Options}
    {index : Index} (hparse : Options.parse words = .ok options)
    (hcommand : options.command = .search c) (hformat : options.style.format = .human)
    (hverbosity : 0 < options.style.verbosity) (hload : (loadIndex store c.index).2 = .ok index)
    (hresults : index.search c.query = .ok results) :
    (runWords store words milliseconds).code = 0 ∧
      (runWords store words milliseconds).output =
        unlines ((searchReport c results).lines options.style.verbosity milliseconds) := by
  have hresult := result_execute_search hload
  rw [hresults] at hresult
  simp only [runWords, hparse, hcommand, Command.execute, Execution.outcome, hresult, Except.map,
    Except.mapError, Report.write, hformat, if_pos hverbosity, Report.human, and_self]

/-- **What a report on a query says.** If the index refuses the query, nothing is printed. Otherwise
the report says that there are no results exactly if none was found or the limit is zero. If there
are results and the limit is not zero, it lists the first ones in the order of their ranks, with
their terms, and counts all of them. -/
theorem reports_results (store : FileStore) {words : List String} {options : Options}
    {index : Index} (hparse : Options.parse words = .ok options)
    (hcommand : options.command = .search c) (hformat : options.style.format = .human)
    (hverbosity : 0 < options.style.verbosity)
    (hload : (loadIndex store c.index).2 = .ok index) :
    (∀ e, index.search c.query = .error e →
      (runWords store words milliseconds).code = 1 ∧
        (runWords store words milliseconds).output = "") ∧
    ∀ results, index.search c.query = .ok results →
      (runWords store words milliseconds).code = 0 ∧
      (SaysNone c.query (runWords store words milliseconds).output ↔
        results = [] ∨ c.limit = 0) ∧
      (results ≠ [] → c.limit ≠ 0 →
        ∃ entries, c.Listing options.style.verbosity milliseconds results entries
          (runWords store words milliseconds).output) := by
  refine ⟨fun e he => ?_, fun results hresults => ?_⟩
  · have hresult := result_execute_search hload
    rw [he] at hresult
    simp only [runWords, hparse, hcommand, Command.execute, Execution.outcome, hresult, Except.map,
      Except.mapError, and_self]
  · obtain ⟨hcode, houtput⟩ := output_runWords milliseconds hparse hcommand hformat hverbosity
      hload hresults
    rw [houtput, ← hits_eq_nil_iff]
    refine ⟨hcode, ⟨fun hnone => ?_, saysNone _ _⟩, fun hne hlimit => listing _ _ ?_⟩
    · by_contra hhits
      obtain ⟨entries, hlisting⟩ := listing options.style.verbosity milliseconds hhits
      exact hlisting.not_saysNone hnone
    · rw [Ne, hits_eq_nil_iff, not_or]
      exact ⟨hne, hlimit⟩

/-- An index of one document. -/
def Sample.oneDocument : Index :=
  ⟨.build Sample.config .english [⟨"a", .ofList [("body", "green")]⟩], .english⟩

/-- The file of this index. -/
def Sample.indexFile : FileStore :=
  FileStore.empty.put (destination "new") (.file (Sample.oneDocument.fileContents "new"))

theorem loadIndex_indexFile : (loadIndex Sample.indexFile "new").2 = .ok Sample.oneDocument := by
  have hmemory : (Sample.oneDocument.fileContents "new").length < UInt64.size := by decide +kernel
  have hbuild : Index.build Sample.config .english [⟨"a", .ofList [("body", "green")]⟩] =
      .ok Sample.oneDocument := rfl
  exact loadIndex_fileContents rfl rfl (Index.storable_of_build hbuild hmemory) hmemory

theorem exists_search_oneDocument : ∃ results, Sample.oneDocument.search "green" = .ok results ∧
    results.map (·.reference) = ["a"] := by
  have hfound : (match Sample.oneDocument.search "green" with
      | .ok results => decide (results.map SearchResult.reference = ["a"])
      | .error _ => false) = true := by decide +kernel
  cases hsearch : Sample.oneDocument.search "green" with
  | error e => simp [hsearch] at hfound
  | ok results => exact ⟨results, rfl, by simpa [hsearch] using hfound⟩

theorem reports_results_sample :
    ∃ results entries, Sample.oneDocument.search "green" = .ok results ∧
      results.map (·.reference) = ["a"] ∧
      Listing ⟨"new", "green", 10, false⟩ 1 0 results entries
        (runWords Sample.indexFile ["search", "new", "green"] 0).output := by
  obtain ⟨results, hsearch, hreferences⟩ := exists_search_oneDocument
  have hne : results ≠ [] := by
    rintro rfl
    cases hreferences
  have hparse : Options.parse ["search", "new", "green"] =
      .ok ⟨⟨1, .human, false⟩, .search ⟨"new", "green", 10, false⟩⟩ := rfl
  obtain ⟨-, hreport⟩ :=
    reports_results 0 Sample.indexFile hparse rfl rfl Nat.one_pos loadIndex_indexFile
  obtain ⟨-, -, hlisting⟩ := hreport results hsearch
  obtain ⟨entries, hentries⟩ := hlisting hne (by decide)
  exact ⟨results, entries, hsearch, hreferences, hentries⟩

/-- **With a limit of zero** a report says that there are no results, although there is one. -/
theorem says_none_of_found :
    (loadIndex Sample.indexFile "new").2 = .ok Sample.oneDocument ∧
    ∃ results, Sample.oneDocument.search "green" = .ok results ∧
      ¬ (SaysNone "green"
        (runWords Sample.indexFile ["search", "new", "green", "--limit", "0"] 0).output ↔
          results = []) := by
  obtain ⟨results, hsearch, hreferences⟩ := exists_search_oneDocument
  have hparse : Options.parse ["search", "new", "green", "--limit", "0"] =
      .ok ⟨⟨1, .human, false⟩, .search ⟨"new", "green", 0, false⟩⟩ := rfl
  obtain ⟨-, houtput⟩ := output_runWords 0 hparse rfl rfl Nat.one_pos loadIndex_indexFile hsearch
  refine ⟨loadIndex_indexFile, results, hsearch, fun hiff => ?_⟩
  rw [houtput] at hiff
  obtain rfl := hiff.1 (saysNone _ _ (hits_eq_nil_iff.2 (.inr rfl)))
  cases hreferences

end SearchCommand

end FullText
