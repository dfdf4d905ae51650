import FullText.Command.Run
import FullText.Proofs.StoredFiles

/-!
# What commands leave alone

Looking up a query and showing the numbers of an index change no file. Building an index can fail in
many ways, but all of them come before the one write, which is the last thing that can fail, so a
command that fails leaves everything as it was. A command that succeeds puts one file at the
destination of its output; unless it is forced, nothing has been there before. Over a run of
commands, whatever stands at a place therefore stays, until a command is forced to overwrite it.

## Main definitions

* `IndexCommand.Builds` : what goes well before a command writes an index.
* `Command.Overwrites` : the commands that may replace what stands at a place.
* `runCommands` : the files that are left after a list of commands.

## Main results

* `IndexCommand.execute_cases` : what building an index can come to.
* `Command.store_execute_cases` : what a command can do to the files.
* `Command.get?_execute`, `Command.read_execute` : what stands at a place stays there, unless the
  command may replace it.
* `runCommands_induction` : what a command preserves, a list of commands preserves.
* `Command.touches_only_output` : all of it for the commands of the program.
-/

namespace FullText

/-! ### Building an index -/

namespace IndexCommand

/-- What goes well before a command writes an index. -/
structure Builds (c : IndexCommand) (store : FileStore) (config : Config) (ds : List Document)
    (index : Index) : Prop where
  /-- There is nothing at the output, or the command is forced. -/
  free : store.fileExists c.output = true → c.force = true
  /-- The configuration is in order. -/
  configured : c.config = .ok config
  /-- The documents are read. -/
  read : c.documents store config = .ok ds
  /-- The index is built. -/
  built : Index.build config .english ds = .ok index

/-- **What building an index can come to**: a failure that leaves the files as they were, or an
index that is written. -/
theorem execute_cases (c : IndexCommand) (store : FileStore) :
    (∃ f, (c.execute store).result = .error f ∧ (c.execute store).store = store) ∨
    ∃ config ds index, c.Builds store config ds index ∧
      store.write c.output (index.fileContents c.output) = .ok (c.execute store).store ∧
      (c.execute store).result =
        .ok (.built (buildReport c index (index.fileContents c.output).length)) := by
  rw [execute]
  split
  · exact .inl ⟨_, rfl, rfl⟩
  · next hfree =>
    split
    · exact .inl ⟨_, rfl, rfl⟩
    · next config hconfig =>
      split
      · exact .inl ⟨_, rfl, rfl⟩
      · next ds hds =>
        rw [buildAndWrite]
        cases hbuild : Index.build config .english ds with
        | error e => exact .inl ⟨_, rfl, rfl⟩
        | ok index =>
          cases hwrite : store.write c.output (index.fileContents c.output) with
          | error fault =>
            refine .inl ⟨.writing c.output (.storage fault), ?_, ?_⟩ <;> simp only [hwrite]
          | ok store' =>
            refine .inr ⟨config, ds, index, ⟨?_, hconfig, hds, hbuild⟩, ?_, ?_⟩
            · intro hexists
              simpa [hexists] using hfree
            · simp only [hwrite]
            · simp only [hwrite]

end IndexCommand

/-! ### One command -/

theorem store_execute_search (c : SearchCommand) (store : FileStore) :
    (c.execute store).store = store := by
  rw [SearchCommand.execute]
  split
  · rfl
  · simp only
    split <;> rfl

theorem store_executeStats (path : String) (store : FileStore) :
    (executeStats path store).store = store := by
  rw [executeStats]
  split <;> rfl

namespace Command

/-- The commands that may replace what stands at a place. -/
def Overwrites (c : Command) (p : Place) : Prop :=
  ∃ i, c = .index i ∧ i.force = true ∧ destination i.output = p

/-- **What a command can do to the files**: nothing, or it succeeds and writes its output, where
nothing has been unless it is forced. -/
theorem store_execute_cases (c : Command) (store : FileStore) :
    (c.execute store).store = store ∨
    ∃ i r contents, c = .index i ∧ (c.execute store).result = .ok r ∧
      store.write i.output contents = .ok (c.execute store).store ∧
      (i.force = true ∨ store.entryAt (destination i.output) = .ok none) := by
  cases c with
  | search c => exact .inl (store_execute_search c store)
  | stats path => exact .inl (store_executeStats path store)
  | index i =>
    rcases i.execute_cases store with ⟨f, -, hstore⟩ | ⟨config, ds, index, hbuilds, hwrite, hresult⟩
    · exact .inl hstore
    · refine .inr ⟨i, _, _, rfl, hresult, hwrite, ?_⟩
      obtain ⟨hwalk, hasks, ⟨found, hentry, -⟩, -⟩ := FileStore.write_eq_ok_iff.1 hwrite
      cases found with
      | none => exact .inr hentry
      | some entry =>
        have hexists : store.fileExists i.output = true :=
          FileStore.fileExists_iff.2 ⟨hwalk, entry, hentry, by simp [hasks]⟩
        exact .inl (hbuilds.free hexists)

section Step

variable {c : Command} {store : FileStore}

theorem store_execute_of_error {f : Failure} (h : (c.execute store).result = .error f) :
    (c.execute store).store = store := by
  rcases store_execute_cases c store with hstore | ⟨i, r, contents, -, hresult, -, -⟩
  · exact hstore
  · rw [h] at hresult
    cases hresult

/-- What stands at a place stays there, unless the command may replace it. -/
theorem get?_execute {p : Place} (hc : ¬ c.Overwrites p) {e : FileEntry}
    (he : store.entries.get? p = some e) : (c.execute store).store.entries.get? p = some e := by
  rcases store_execute_cases c store with hstore | ⟨i, r, contents, hi, -, hwrite, hfree⟩
  · rwa [hstore]
  · obtain ⟨-, -, -, hput⟩ := FileStore.write_eq_ok_iff.1 hwrite
    by_cases hp : p = destination i.output
    · rcases hfree with hforce | hnone
      · exact absurd ⟨i, hi, hforce, hp.symm⟩ hc
      · have hget := FileStore.get?_of_entryAt hnone (by simp)
        rw [← hp, he] at hget
        cases hget
    · rw [hput, FileStore.put, SortedMap.get?_insert, if_neg hp, he]

/-- A file is read as before, unless the command may replace it. -/
theorem read_execute {path : String} (hc : ¬ c.Overwrites (destination path)) {contents : Bytes}
    (hread : store.read path = .ok contents) :
    (c.execute store).store.read path = .ok contents := by
  rcases store_execute_cases c store with hstore | ⟨i, r, contents', hi, -, hwrite, hfree⟩
  · rwa [hstore]
  · by_cases hpath : destination path = destination i.output
    · rcases hfree with hforce | hnone
      · exact absurd ⟨i, hi, hforce, hpath.symm⟩ hc
      · obtain ⟨-, hentry, -⟩ := FileStore.read_eq_ok_iff.1 hread
        rw [hpath, hnone] at hentry
        cases hentry
    · exact (FileStore.read_write_of_ne hwrite hpath).2 hread

end Step

end Command

/-! ### Many commands -/

/-- The files that are left after a list of commands. -/
def runCommands (store : FileStore) (commands : List Command) : FileStore :=
  commands.foldl (fun s c => (c.execute s).store) store

/-- What a command preserves, a list of commands preserves. -/
theorem runCommands_induction {P : FileStore → Prop} {commands : List Command}
    (hstep : ∀ c ∈ commands, ∀ store, P store → P (c.execute store).store) {store : FileStore}
    (hstart : P store) : P (runCommands store commands) := by
  induction commands generalizing store with
  | nil => exact hstart
  | cons c commands ih =>
    exact ih (fun c' hc' => hstep c' (List.mem_cons_of_mem c hc'))
      (hstep c List.mem_cons_self store hstart)

namespace Command

/-- **Commands touch nothing but their output.** Looking up a query, showing the numbers of an
index and all commands that fail leave the files as they were. A command that builds an index and
succeeds puts one file at the destination of its output, and everything else stays and is read as
before. If something is at the output already, it succeeds only if it is forced. So over a list of
commands of any length, what stands at a place stays there, and a file is read as before, unless
one of the commands is forced to overwrite it. -/
theorem touches_only_output (store : FileStore) :
    (∀ c : Command, (∀ i, c ≠ .index i) → (c.execute store).store = store) ∧
    (∀ (c : Command) f, (c.execute store).result = .error f → (c.execute store).store = store) ∧
    (∀ (i : IndexCommand) r, (i.execute store).result = .ok r →
      (∃ contents, (i.execute store).store = store.put (destination i.output) (.file contents) ∧
        (i.execute store).store.read i.output = .ok contents) ∧
      ∀ path, destination path ≠ destination i.output →
        (i.execute store).store.fileExists path = store.fileExists path ∧
        ∀ contents, (i.execute store).store.read path = .ok contents ↔
          store.read path = .ok contents) ∧
    (∀ i : IndexCommand, store.fileExists i.output = true → i.force = false →
      (i.execute store).result = .error (.outputExists i.output)) ∧
    ∀ commands : List Command,
      (∀ p, (∀ c ∈ commands, ¬ c.Overwrites p) → ∀ e, store.entries.get? p = some e →
        (runCommands store commands).entries.get? p = some e) ∧
      ∀ path, (∀ c ∈ commands, ¬ c.Overwrites (destination path)) → ∀ contents,
        store.read path = .ok contents → (runCommands store commands).read path = .ok contents := by
  refine ⟨fun c hc => ?_, fun c f h => store_execute_of_error h, fun i r hresult => ?_,
    fun i hexists hforce => ?_, fun commands => ⟨fun p hp e he => ?_, fun path hpath c hread => ?_⟩⟩
  · rcases store_execute_cases c store with hstore | ⟨i, -, -, hi, -⟩
    · exact hstore
    · exact absurd hi (hc i)
  · rcases i.execute_cases store with ⟨f, hfailed, -⟩ | ⟨config, ds, index, -, hwrite, -⟩
    · rw [hresult] at hfailed
      cases hfailed
    · obtain ⟨-, -, -, hput⟩ := FileStore.write_eq_ok_iff.1 hwrite
      exact ⟨⟨_, hput, FileStore.read_write hwrite⟩, fun path hne =>
        ⟨FileStore.fileExists_write_of_ne hwrite hne, fun contents =>
          FileStore.read_write_of_ne hwrite hne⟩⟩
  · rw [IndexCommand.execute, hexists, hforce]
    rfl
  · exact runCommands_induction (P := fun s => s.entries.get? p = some e)
      (fun c hc _ h => get?_execute (hp c hc) h) he
  · exact runCommands_induction (P := fun s => s.read path = .ok c)
      (fun c hc _ h => read_execute (hpath c hc) h) hread

end Command

/-- A file of one document, and another file. -/
def Sample.files : FileStore :=
  (FileStore.empty.put (destination "docs")
      (.file "\x7b\"id\":\"a\",\"body\":\"green\"\x7d".toUTF8.toList)).put
    (destination "old") (.file [1, 2, 3])

/-- A command that builds an index of the documents in a file and is not forced. -/
def Sample.indexing (file output : String) : IndexCommand :=
  ⟨file, output, "id", [⟨"body", .one, false⟩], [], .half, false⟩

/-- The documents are indexed at a free place, but neither over the other file nor over themselves,
and the other file is no file of documents. It is still there after all of these commands. -/
theorem Command.touches_only_output_sample :
    (∃ r, ((Sample.indexing "docs" "new").execute Sample.files).result = .ok r) ∧
      ((Sample.indexing "docs" "new").execute Sample.files).store.read "old" = .ok [1, 2, 3] ∧
      (Command.execute Sample.files (.search ⟨"old", "green", 10, true⟩)).store = Sample.files ∧
      (Command.execute Sample.files (.index (Sample.indexing "old" "new"))).store = Sample.files ∧
      ((Sample.indexing "docs" "docs").execute Sample.files).result =
        .error (.outputExists "docs") ∧
      (runCommands Sample.files
        [.index (Sample.indexing "docs" "new"), .stats "new",
          .index (Sample.indexing "docs" "old")]).read "old" = .ok [1, 2, 3] := by
  obtain ⟨hreading, hfailing, hbuilding, hoccupied, hrun⟩ := touches_only_output Sample.files
  obtain ⟨r, hr⟩ : ∃ r, ((Sample.indexing "docs" "new").execute Sample.files).result = .ok r := by
    have hok : ((Sample.indexing "docs" "new").execute Sample.files).result.isOk = true := by
      decide +kernel
    cases hresult : ((Sample.indexing "docs" "new").execute Sample.files).result with
    | ok r => exact ⟨r, rfl⟩
    | error f =>
      rw [hresult] at hok
      cases hok
  obtain ⟨-, hothers⟩ := hbuilding _ r hr
  refine ⟨⟨r, hr⟩, ((hothers "old" (by decide +kernel)).2 _).2 (by decide +kernel),
    hreading _ (by simp), hfailing _ (.parsing "old" .json) (by rfl),
    hoccupied _ (by decide +kernel) rfl, (hrun _).2 "old" ?_ _ (by decide +kernel)⟩
  rintro c hc ⟨i, rfl, hforce, -⟩
  simp only [List.mem_cons, List.not_mem_nil, Command.index.injEq, reduceCtorEq, false_or,
    or_false] at hc
  rcases hc with rfl | rfl <;> cases hforce

end FullText
