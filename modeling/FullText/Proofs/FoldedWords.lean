import FullText.Proofs.FinalSigma
import FullText.Proofs.LineFeeds
import FullText.Proofs.PatternFolding

/-!
# Folded patterns and folded words

The words of a document are turned into lower case as a whole, a pattern run by run, since nobody
knows what its stars stand for. A pattern that spans a word should span it after folding, too. It
does so for every word exactly if no form of a capital sigma in its runs hangs on what the stars
stand for; a pattern without a capital sigma is always among these.

For any other pattern there is a word that it spans, and that it does not span after folding. The
word is built of the runs with digits between them, so that every run stays what it is on its own,
except that a letter is put beside the run that is open there. One sigma takes another form, and
the folded word has too few sigmas of one form for the runs of the folded pattern.

## Main results

* `Text.OpenAfter.count_lowerWithin`, `Text.OpenBefore.count_lowerWithin` : a letter beside an open
  run changes the form of one sigma.
* `Glob.spanned_lowerFrom` : settled runs in lower case span the text in lower case.
* `Glob.exists_unspanned_lowerChars` : other runs do not, for some text.
* `Pipeline.folds_alike_iff` : which patterns are folded as the words are.
* `Pipeline.sigma_folded_apart` : a pattern that is not.
-/

namespace FullText

namespace Text

/-! ### Sigmas that change -/

/-- A run that is open after it has one final sigma less if a word continues there. -/
theorem OpenAfter.count_lowerWithin {run : List Char} (h : OpenAfter run) {after : List Char}
    (hafter : continuesWord after = true) (before : List Char) :
    (lowerWithin before run after).count '\u03C2' + 1 =
      (lowerWithin before run []).count '\u03C2' := by
  obtain ⟨u, v, rfl, hu, hv⟩ := h
  have hbefore : continuesWord (u.reverse ++ before) = true := by
    rw [continuesWord_append_of_exists (exists_of_continuesWord hu), hu]
  have hhead : lowerWithin before u (capitalSigma :: v ++ after) =
      lowerWithin before u (capitalSigma :: v ++ []) :=
    lowerWithin_congr rfl (by rw [List.cons_append, List.cons_append, continuesWord_sigma,
      continuesWord_sigma]) u
  have hrest := lowerWithin_of_notMem (sigma_notMem_of_all hv)
    (capitalSigma :: (u.reverse ++ before))
  have hform : sigmaForm (u.reverse ++ before) (v ++ after) = '\u03C3' := by
    rw [sigmaForm, hbefore, continuesWord_append_of_all hv, hafter]
    rfl
  have hform' : sigmaForm (u.reverse ++ before) (v ++ []) = '\u03C2' := by
    rw [sigmaForm, hbefore, continuesWord_append_of_all hv]
    rfl
  rw [lowerWithin_sigma, lowerWithin_sigma, hhead, hrest, hrest, hform, hform', List.count_append,
    List.count_append, List.count_cons_self, List.count_cons_of_ne (by decide)]
  omega

/-- A run that is open before it has one sigma less that is not final if a word continues there. -/
theorem OpenBefore.count_lowerWithin {run : List Char} (h : OpenBefore run) {before : List Char}
    (hbefore : continuesWord before = true) :
    (lowerWithin before run []).count '\u03C3' + 1 = (lowerChars run).count '\u03C3' := by
  obtain ⟨u, v, rfl, hu, hv⟩ := h
  have hu' : ∀ c ∈ u.reverse, isCaseIgnorable c = true := by simpa using hu
  have hhead := lowerWithin_of_notMem (sigma_notMem_of_all hu)
  have hrest : lowerWithin (capitalSigma :: (u.reverse ++ before)) v [] =
      lowerWithin (capitalSigma :: (u.reverse ++ [])) v [] :=
    lowerWithin_congr (by rw [continuesWord_sigma, continuesWord_sigma]) rfl v
  have hform : sigmaForm (u.reverse ++ before) (v ++ []) = '\u03C2' := by
    rw [sigmaForm, continuesWord_append_of_all hu', hbefore, List.append_nil, hv]
    rfl
  have hform' : sigmaForm (u.reverse ++ []) (v ++ []) = '\u03C3' := by
    rw [sigmaForm, continuesWord_append_of_all hu']
    rfl
  rw [lowerChars, lowerFrom_eq_lowerWithin, lowerWithin_sigma, lowerWithin_sigma, hhead, hhead,
    hrest, hform, hform', List.count_append, List.count_append, List.count_cons_self,
    List.count_cons_of_ne (by decide)]
  omega

/-! ### Runs kept apart -/

/-- Runs with a digit between each two of them, which belongs to no word. -/
def keptApart (runs : List (List Char)) : List Char := List.intercalate ['0'] runs

theorem continuesWord_zero (v : List Char) : continuesWord ('0' :: v) = false := by
  have hzero : isCaseIgnorable '0' = false ∧ isCased '0' = false := by decide +kernel
  rw [continuesWord, List.dropWhile_cons_of_neg (by simp [hzero.1])]
  exact hzero.2

theorem continuesWord_letter (v : List Char) : continuesWord ('a' :: v) = true := by
  have hletter : isCaseIgnorable 'a' = false ∧ isCased 'a' = true := by decide +kernel
  rw [continuesWord, List.dropWhile_cons_of_neg (by simp [hletter.1])]
  exact hletter.2

theorem keptApart_cons_cons (run next : List Char) (runs : List (List Char)) :
    keptApart (run :: next :: runs) = run ++ '0' :: keptApart (next :: runs) := by
  rw [keptApart, List.intercalate_cons_cons, List.append_assoc, List.singleton_append, keptApart]

theorem exists_keptApart_concat (init : List (List Char)) (run : List Char) :
    ∃ front, keptApart (init ++ [run]) = front ++ run := by
  induction init with
  | nil => exact ⟨[], List.intercalate_singleton⟩
  | cons first init ih =>
    obtain ⟨front, hfront⟩ := ih
    obtain ⟨next, rest, hcons⟩ := List.exists_cons_of_ne_nil
      (List.append_ne_nil_of_right_ne_nil init (List.cons_ne_nil run []))
    rw [List.cons_append, hcons, keptApart_cons_cons, ← hcons, hfront]
    exact ⟨first ++ '0' :: front, by simp⟩

theorem exists_keptApart_cons (run : List Char) (runs : List (List Char)) :
    ∃ back, keptApart (run :: runs) = run ++ back ∧ continuesWord back = false := by
  cases runs with
  | nil => exact ⟨[], by rw [keptApart, List.intercalate_singleton, List.append_nil], rfl⟩
  | cons next rest => exact ⟨_, keptApart_cons_cons run next rest, continuesWord_zero _⟩

theorem OpenAfter.append {run : List Char} (h : OpenAfter run) (front : List Char) :
    OpenAfter (front ++ run) := by
  obtain ⟨u, v, rfl, hu, hv⟩ := h
  refine ⟨front ++ u, v, by simp, ?_, hv⟩
  rw [List.reverse_append, continuesWord_append_of_exists (exists_of_continuesWord hu), hu]

theorem OpenBefore.append {run : List Char} (h : OpenBefore run) {back : List Char}
    (hback : continuesWord back = false) : OpenBefore (run ++ back) := by
  obtain ⟨u, v, rfl, hu, hv⟩ := h
  refine ⟨u, v ++ back, by simp, hu, ?_⟩
  rcases all_or_exists v with hall | hexists
  · rw [continuesWord_append_of_all hall, hback]
  · rw [continuesWord_append_of_exists hexists, hv]

/-- Runs that are kept apart become what they would become on their own. -/
theorem lowerWithin_keptApart {before : List Char} (hbefore : continuesWord before = false)
    (runs : List (List Char)) :
    lowerWithin before (keptApart runs) [] = keptApart (runs.map lowerChars) := by
  induction runs generalizing before with
  | nil => rfl
  | cons run runs ih =>
    cases runs with
    | nil =>
      rw [keptApart, List.intercalate_singleton, List.map_cons, List.map_nil, keptApart,
        List.intercalate_singleton]
      exact lowerWithin_eq_lowerChars (.inl hbefore) (.inl rfl)
    | cons next rest =>
      have hrun : lowerWithin before run ('0' :: keptApart (next :: rest)) = lowerChars run :=
        lowerWithin_eq_lowerChars (.inl hbefore) (.inl (continuesWord_zero _))
      rw [keptApart_cons_cons, lowerWithin_append, List.append_nil, hrun, lowerWithin,
        ih (continuesWord_zero _)]
      exact (keptApart_cons_cons (lowerChars run) (lowerChars next) (rest.map lowerChars)).symm

theorem count_keptApart {c : Char} (hc : c ≠ '0') (runs : List (List Char)) :
    (keptApart runs).count c = (runs.map (·.count c)).sum := by
  induction runs with
  | nil => rfl
  | cons run runs ih =>
    cases runs with
    | nil => rw [keptApart, List.intercalate_singleton]; simp
    | cons next rest =>
      rw [keptApart_cons_cons, List.count_append, List.count_cons_of_ne hc.symm, ih]
      rfl

end Text

/-! ### Spanned texts in lower case -/

namespace Glob

open Text

theorem Spanned.cons {runs : List (List Char)} (hne : runs ≠ []) (run stretch : List Char)
    {rest : List Char} (h : Spanned runs rest) :
    Spanned (run :: runs) (run ++ stretch ++ rest) := by
  obtain ⟨next, runs, rfl⟩ := List.exists_cons_of_ne_nil hne
  exact ⟨stretch, rest, rfl, fun _ _ => trivial, h⟩

/-- Two spanned texts with anything between them. -/
theorem Spanned.append {runs : List (List Char)} (hne : runs ≠ []) {t : List Char}
    (ht : Spanned runs t) (stretch : List Char) : {runs' : List (List Char)} → runs' ≠ [] →
    {s : List Char} → Spanned runs' s → Spanned (runs' ++ runs) (s ++ stretch ++ t)
  | [], hne', _, _ => absurd rfl hne'
  | [run], _, s, hs => by
    obtain rfl : s = run := hs
    exact ht.cons hne s stretch
  | run :: next :: runs', _, s, ⟨x, rest, hx, _, hs⟩ => by
    have hrest := Spanned.append hne ht stretch (List.cons_ne_nil next runs') hs
    have hspan := hrest.cons (List.cons_ne_nil next (runs' ++ runs)) run x
    rw [hx]
    simpa using hspan

theorem spanned_keptApart : {runs : List (List Char)} → runs ≠ [] → Spanned runs (keptApart runs)
  | [], hne => absurd rfl hne
  | [run], _ => List.intercalate_singleton
  | run :: next :: runs, _ => by
    have hrest := spanned_keptApart (List.cons_ne_nil next runs)
    have hspan := hrest.cons (List.cons_ne_nil next runs) run ['0']
    rw [keptApart_cons_cons]
    simpa using hspan

/-- **Settled runs in lower case span the text in lower case.** -/
theorem spanned_lowerFrom : {runs : List (List Char)} → SettledSigmas runs →
    {before t : List Char} →
    (∀ run ∈ runs.head?, continuesWord before = false ∨ ¬ OpenBefore run) → Spanned runs t →
    Spanned (runs.map lowerChars) (lowerFrom before t)
  | [], _, _, t, _, h => by
    obtain rfl : t = [] := h
    rfl
  | [run], _, before, t, hbefore, h => by
    obtain rfl : t = run := h
    rw [lowerFrom_eq_lowerWithin]
    exact lowerWithin_eq_lowerChars (hbefore t rfl) (.inl rfl)
  | run :: next :: runs, hsettled, before, t, hbefore, ⟨stretch, rest, ht, _, h⟩ => by
    obtain ⟨hafter, hnext, hsettled⟩ := settledSigmas_cons_cons.1 hsettled
    have hrest : Spanned ((next :: runs).map lowerChars)
        (lowerFrom ((run ++ stretch).reverse ++ before) rest) := by
      refine spanned_lowerFrom hsettled (fun run' hrun' => .inr ?_) h
      obtain rfl := Option.mem_some_iff.1 hrun'
      exact hnext
    have hrun : lowerWithin before run (stretch ++ rest) = lowerChars run :=
      lowerWithin_eq_lowerChars (hbefore run rfl) (.inr hafter)
    rw [ht, lowerFrom_append, lowerWithin_append, hrun]
    exact hrest.cons (List.cons_ne_nil _ _) (lowerChars run) _

section Unsettled

variable {left right : List (List Char)}

/-- Two lists of runs, each kept apart, with anything between them. -/
theorem spanned_keptApart_append (hleft : left ≠ []) (hright : right ≠ []) (stretch : List Char) :
    Spanned (left ++ right) (keptApart left ++ stretch ++ keptApart right) :=
  (spanned_keptApart hright).append hright stretch hleft (spanned_keptApart hleft)

/-- A text that is spanned by runs in lower case has at least the sigmas of all of them, each on its
own. -/
theorem count_keptApart_le {c : Char} (hc : c ≠ '0') {t : List Char}
    (ht : Spanned ((left ++ right).map lowerChars) t) :
    (lowerChars (keptApart left)).count c + (lowerChars (keptApart right)).count c ≤
      t.count c := by
  have hle := SpannedBy.sum_count_le c _ ht
  rw [List.map_append, List.map_append, List.sum_append] at hle
  rw [lowerChars, lowerChars, lowerFrom_eq_lowerWithin, lowerFrom_eq_lowerWithin,
    lowerWithin_keptApart rfl, lowerWithin_keptApart rfl, count_keptApart hc, count_keptApart hc]
  exact hle

/-- A letter after an open run takes a final sigma from it. -/
theorem exists_unspanned_of_openAfter {run : List Char} (hopen : OpenAfter run)
    (init : List (List Char)) (hright : right ≠ []) :
    ∃ t, Spanned (init ++ [run] ++ right) t ∧
      ¬ Spanned ((init ++ [run] ++ right).map lowerChars) (lowerChars t) := by
  refine ⟨_, spanned_keptApart_append (by simp) hright ['a', '0'], fun hlower => ?_⟩
  have hle := count_keptApart_le (c := '\u03C2') (by decide) hlower
  obtain ⟨front, hfront⟩ := exists_keptApart_concat init run
  have hless := (hopen.append front).count_lowerWithin
    (continuesWord_letter ('0' :: keptApart right)) []
  have hkept : lowerWithin (['a', '0'].reverse ++ (front ++ run).reverse) (keptApart right) [] =
      lowerChars (keptApart right) := by
    rw [lowerChars, lowerFrom_eq_lowerWithin]
    exact lowerWithin_congr (continuesWord_zero _) rfl _
  have hmiddle :
      (lowerWithin (front ++ run).reverse ['a', '0'] (keptApart right)).count '\u03C2' = 0 := by
    rw [lowerWithin_of_notMem (by decide)]
    decide +kernel
  rw [hfront, lowerChars_between, List.count_append, List.count_append, hkept, hmiddle,
    lowerChars, lowerFrom_eq_lowerWithin] at hle
  simp only [List.cons_append, List.nil_append] at hle
  omega

/-- A letter before an open run takes a sigma that is not final from it. -/
theorem exists_unspanned_of_openBefore {run : List Char} (hopen : OpenBefore run)
    (hleft : left ≠ []) (rest : List (List Char)) :
    ∃ t, Spanned (left ++ run :: rest) t ∧
      ¬ Spanned ((left ++ run :: rest).map lowerChars) (lowerChars t) := by
  refine ⟨_, spanned_keptApart_append hleft (List.cons_ne_nil run rest) ['0', 'a'],
    fun hlower => ?_⟩
  have hle := count_keptApart_le (c := '\u03C3') (by decide) hlower
  obtain ⟨back, hback, hcontinues⟩ := exists_keptApart_cons run rest
  have hless := (hopen.append hcontinues).count_lowerWithin
    (continuesWord_letter ('0' :: (keptApart left).reverse))
  have hkept : lowerWithin [] (keptApart left) (['0', 'a'] ++ (run ++ back)) =
      lowerChars (keptApart left) := by
    rw [lowerChars, lowerFrom_eq_lowerWithin]
    exact lowerWithin_congr rfl (continuesWord_zero _) _
  have hmiddle :
      (lowerWithin (keptApart left).reverse ['0', 'a'] (run ++ back)).count '\u03C3' = 0 := by
    rw [lowerWithin_of_notMem (by decide)]
    decide +kernel
  rw [hback, lowerChars_between, List.count_append, List.count_append, hkept, hmiddle] at hle
  simp only [List.reverse_cons, List.reverse_nil, List.nil_append, List.cons_append] at hle
  omega

end Unsettled

/-- **Other runs in lower case do not, for some text.** A letter beside the open run gives one of
its sigmas another form, and digits keep all others what they are. -/
theorem exists_unspanned_lowerChars {runs : List (List Char)} (h : ¬ SettledSigmas runs) :
    ∃ t, Spanned runs t ∧ ¬ Spanned (runs.map lowerChars) (lowerChars t) := by
  obtain ⟨init, run, next, rest, rfl, hopen⟩ := exists_open_of_not_settledSigmas h
  have hruns : init ++ run :: next :: rest = init ++ [run] ++ next :: rest := by simp
  rw [hruns]
  rcases hopen with hopen | hopen
  · exact exists_unspanned_of_openAfter hopen init (List.cons_ne_nil next rest)
  · exact exists_unspanned_of_openBefore hopen (by simp) rest

end Glob

/-! ### Pipelines -/

namespace Pipeline

variable {p : Pipeline}

theorem runToken_of_filters (hp : p.filters = [.lowercase]) (raw : Token) :
    p.runToken raw = some (raw.withText (Text.lowercase raw.text)) := by
  rw [runToken, hp]
  rfl

theorem splitWhere_foldPattern_of_filters (hp : p.filters = [.lowercase]) (pattern : String) :
    Text.splitWhere isStar (p.foldPattern pattern).toList =
      (Text.splitWhere isStar pattern.toList).map Text.lowerChars := by
  rw [splitWhere_foldPattern]
  refine List.map_congr_left fun run _ => ?_
  rw [foldLiteral, hp, List.foldl_cons, List.foldl_nil, Filter.foldLiteral, Text.lowercase_eq,
    String.toList_ofList, String.toList_ofList]

/-- **Which patterns are folded as the words are.** In a pipeline whose only filter is lower case,
every word that a pattern spans is spanned by the folded pattern when it is indexed, exactly if no
form of a capital sigma in the pattern hangs on what the stars stand for. This is so if the pattern
has no capital sigma at all. -/
theorem folds_alike_iff (hp : p.filters = [.lowercase]) (pattern : String) :
    ((∀ raw : Token, Glob.Spanned (Text.splitWhere isStar pattern.toList) raw.text.toList →
        ∃ t, p.runToken raw = some t ∧ t.text = Text.lowercase raw.text ∧
          Glob.Spanned (Text.splitWhere isStar (p.foldPattern pattern).toList) t.text.toList) ↔
      Text.SettledSigmas (Text.splitWhere isStar pattern.toList)) ∧
    (Text.capitalSigma ∉ pattern.toList →
      Text.SettledSigmas (Text.splitWhere isStar pattern.toList)) := by
  rw [splitWhere_foldPattern_of_filters hp]
  refine ⟨⟨fun h => ?_, fun h raw hspan => ?_⟩, fun h => ?_⟩
  · by_contra hopen
    obtain ⟨text, hspan, hnot⟩ := Glob.exists_unspanned_lowerChars hopen
    obtain ⟨t, -, htext, ht⟩ := h (.single (String.ofList text)) (by rwa [Token.single,
      String.toList_ofList])
    rw [htext, Text.lowercase_eq, Token.single, String.toList_ofList, String.toList_ofList] at ht
    exact hnot ht
  · refine ⟨_, runToken_of_filters hp raw, rfl, ?_⟩
    rw [Token.text_withText, Text.lowercase_eq, String.toList_ofList]
    exact Glob.spanned_lowerFrom h (fun _ _ => .inl rfl) hspan
  · exact .of_notMem fun run hrun hmem => h (Text.subset_of_mem_splitWhere hrun hmem)

/-- A pipeline with no filter but lower case. -/
def Sample.lowering : Pipeline := ⟨.word, [.lowercase]⟩

theorem folds_alike_iff_sample :
    ∃ t, Sample.lowering.runToken (.single "ÉCOLE") = some t ∧ t.text = "école" ∧
      Glob.Spanned (Text.splitWhere isStar (Sample.lowering.foldPattern "É*LE").toList)
        t.text.toList := by
  obtain ⟨hiff, hnone⟩ := folds_alike_iff (p := Sample.lowering) rfl "É*LE"
  obtain ⟨t, ht, htext, hspan⟩ := hiff.2 (hnone (by decide)) (.single "ÉCOLE")
    ⟨"CO".toList, "LE".toList, by decide, fun _ _ => trivial, rfl⟩
  exact ⟨t, ht, htext.trans (by decide +kernel), hspan⟩

/-- A capital sigma before a star becomes a final sigma in the pattern, and another one in the word
that goes on after it: the pattern spans the word, but not after folding. -/
theorem sigma_folded_apart :
    ∃ raw ∈ Sample.lowering.tokenizer.tokens "ΑΣΑ", ∃ t, Sample.lowering.runToken raw = some t ∧
      t.text = "ασα" ∧ Sample.lowering.foldPattern "ΑΣ*" = "ας*" ∧
      Glob.Spanned (Text.splitWhere isStar "ΑΣ*".toList) raw.text.toList ∧
      ¬ Glob.Spanned (Text.splitWhere isStar (Sample.lowering.foldPattern "ΑΣ*").toList)
        t.text.toList := by
  have hfold : Sample.lowering.foldPattern "ΑΣ*" = "ας*" := by decide +kernel
  have hword : Text.lowercase "ΑΣΑ" = "ασα" := by decide +kernel
  refine ⟨⟨"ΑΣΑ", 0, 0, 6⟩, by decide +kernel, _, runToken_of_filters rfl _, hword, hfold,
    ⟨"Α".toList, [], by decide, fun _ _ => trivial, rfl⟩, fun hspan => ?_⟩
  rw [hfold, Token.text_withText, hword] at hspan
  exact absurd (Glob.SpannedBy.sum_count_le 'ς' _ hspan) (by decide)

end Pipeline

end FullText
