import FullText.Proofs.IndexContents
import FullText.Proofs.PlainTokens

/-!
# Terms of English text

What a vocabulary holds has gone through all filters, so it is known from what each of them does to
a token. The tokenizer leaves out white space and hyphens, and the trimmer drops what it would leave
empty. Lower case takes away the capitals, and no filter after it brings them back. The stemmer
keeps the beginning of a word, so an empty term in a vocabulary was empty before it was stemmed.

The same tokens are looked up for the terms of a query. If a term has no star, none of its tokens
has one, and an exact or fuzzy clause is not mistaken for a pattern when it is looked up.

## Main definitions

* `EnglishTerm` : what is known of a term of English text.

## Main results

* `Filter.notCapital_of_runFilters` : filters with lower case among them leave no capitals.
* `Porter.stem_shortens` : **stemming neither destroys nor lengthens a word.**
* `Index.english_vocabulary` : **the terms of English text are well formed.**
-/

namespace FullText

/-! ### Words without capitals -/

/-- No filter for English text brings in capitals, and lower case takes them away. -/
theorem Filter.notCapital_of_runFilters {filters : List Filter}
    (hfilters : ∀ f ∈ filters, f.IsEnglish) (hlower : .lowercase ∈ filters) {t u : Token}
    (h : Pipeline.runFilters filters t = some u) : ∀ c ∈ u.text.toList, c.isUpper = false := by
  induction filters generalizing t with
  | nil => cases hlower
  | cons f rest ih =>
    obtain ⟨t₁, hf, hrest⟩ := Option.bind_eq_some_iff.1 h
    have hrestEnglish : ∀ g ∈ rest, g.IsEnglish :=
      fun g hg => hfilters g (List.mem_cons_of_mem _ hg)
    rcases List.mem_cons.1 hlower with rfl | hlower
    · refine forall_mem_runFilters (fun c hc => hc.notCapital) hrestEnglish hrest fun c hc => ?_
      rw [← Option.some.inj hf, Token.text_withText] at hc
      rcases Text.small_or_mem_lowercase hc with hc | ⟨-, hc⟩
      · exact hc.notCapital
      · exact hc
    · exact ih hrestEnglish hlower hrest

/-! ### Terms -/

/-- What is known of a term of English text. -/
structure EnglishTerm (term : String) : Prop where
  /-- It is not empty. -/
  nonempty : term ≠ ""
  /-- It holds no white space. -/
  notBlank : ∀ c ∈ term.toList, Text.isBlank c = false
  /-- It holds no hyphen. -/
  notHyphen : '-' ∉ term.toList
  /-- It holds no capital. -/
  notCapital : ∀ c ∈ term.toList, c.isUpper = false

theorem EnglishTerm.lineFeed_notMem {term : String} (h : EnglishTerm term) :
    '\n' ∉ term.toList := fun hmem => absurd (h.notBlank '\n' hmem) (by decide)

theorem Pipeline.englishTerm_of_mem {text : String} {t : Token} (ht : t ∈ english.analyze text) :
    EnglishTerm t.text := by
  obtain ⟨raw, -, hrun⟩ := mem_analyze_iff.1 ht
  refine {
    nonempty := fun hempty => (plain_english.of_mem_analyze ht).1 (by rw [hempty]; rfl)
    notBlank := fun c hc => (of_mem_english ht hc).1
    notHyphen := fun hc => (of_mem_english ht hc).2.1 rfl
    notCapital := ?_ }
  exact Filter.notCapital_of_runFilters isEnglish_of_mem
    (List.mem_cons_of_mem _ List.mem_cons_self) hrun

/-! ### Stemmed vocabularies -/

theorem Pipeline.runFilters_append (before after : List Filter) (t : Token) :
    runFilters (before ++ after) t = (runFilters before t).bind (runFilters after) := by
  induction before generalizing t with
  | nil => rfl
  | cons f rest ih =>
    rw [List.cons_append, runFilters, runFilters, Option.bind_assoc]
    exact congrArg _ (funext ih)

namespace Porter

/-- A stem is empty only if the word is. -/
theorem stem_eq_empty_iff {word : String} : stem word = "" ↔ word = "" := by
  constructor
  · intro h
    by_contra hword
    have hne : word.toList ≠ [] := by rwa [Ne, String.toList_eq_nil_iff]
    exact stem_ne_nil hne (by rw [h]; rfl)
  · rintro rfl
    exact stem_eq_self (by decide)

/-- Where a text leads to an empty token through the stemmer and the filters after it, it leads to
one without them. -/
theorem exists_empty_token {tokenizer : Tokenizer} {before after : List Filter}
    (hafter : ∀ f ∈ after, f.IsEnglish) {text : String}
    (h : ∃ t ∈ (Pipeline.mk tokenizer (before ++ .porter :: after)).analyze text, t.text = "") :
    ∃ t ∈ (Pipeline.mk tokenizer before).analyze text, t.text = "" := by
  obtain ⟨t, ht, hempty⟩ := h
  obtain ⟨raw, hraw, hrun⟩ := Pipeline.mem_analyze_iff.1 ht
  rw [Pipeline.runToken, Pipeline.runFilters_append] at hrun
  obtain ⟨u, hbefore, hlater⟩ := Option.bind_eq_some_iff.1 hrun
  refine ⟨u, Pipeline.mem_analyze_iff.2 ⟨raw, hraw, hbefore⟩, ?_⟩
  by_contra hu
  have hfilters : ∀ f ∈ Filter.porter :: after, f.IsEnglish :=
    List.forall_mem_cons.2 ⟨rfl, hafter⟩
  refine Filter.runFilters_ne_nil hfilters hlater ?_ (by rw [hempty]; rfl)
  rwa [Ne, String.toList_eq_nil_iff]

open InvertedIndex in
/-- **Stemming neither destroys nor lengthens a word.** At every stage of stemming something is left
of a word of three or more ASCII characters, it is not longer than the word, and it starts with the
first letter of the word; where a step looks at the last letters or takes one off, they are there.
Other words stay as they are. So a token is empty after stemming only if it was before, and an empty
term in the vocabulary of an index is there without the stemmer and what comes after it. -/
theorem stem_shortens :
    (∀ word : String, Text.isAscii word.toList = true → 3 ≤ word.utf8ByteSize →
      (∀ stage ∈ stages (word.toList.map Char.toLower), StageOf word.toList stage) ∧
      (stages (word.toList.map Char.toLower)).getLast? = some (stem word).toList ∧
      StageOf word.toList (stem word).toList ∧ (stem word).utf8ByteSize ≤ word.utf8ByteSize) ∧
    (∀ word : String, ¬ (Text.isAscii word.toList = true ∧ 3 ≤ word.utf8ByteSize) →
      stem word = word) ∧
    (∀ word, endsWithDoubleConsonant word = true ∨ hasEnding "ll" word = true →
      2 ≤ word.length) ∧
    (∀ word, endsWithShortSyllable word = true → 3 ≤ word.length) ∧
    (∀ t : Token, ∃ u, Filter.porter.apply t = some u ∧ (u.text = "" ↔ t.text = "")) ∧
    ∀ (config : Config) (tokenizer : Tokenizer) (before after : List Filter)
      (documents : List Document) (index : Index), (∀ f ∈ after, f.IsEnglish) →
      Index.build config ⟨tokenizer, before ++ .porter :: after⟩ documents = .ok index →
      ∃ index', Index.build config ⟨tokenizer, before⟩ documents = .ok index' ∧
        ∀ name f, index.inverted.field? name = some f → "" ∈ f.vocabulary →
          ∃ f', index'.inverted.field? name = some f' ∧ "" ∈ f'.vocabulary := by
  refine ⟨fun word hascii hlength => ?_, fun word h => stem_eq_self h, fun word h => ?_,
    fun word h => ?_, fun t => ⟨_, rfl, stem_eq_empty_iff⟩,
    fun config tokenizer before after documents index hafter hbuild => ?_⟩
  · have hstem := stageOf_stem hascii hlength
    have hlower : 2 ≤ word.toList.length := by
      rw [← Text.utf8ByteSize_eq_length hascii]
      exact Nat.le_of_succ_le hlength
    refine ⟨stageOf_of_mem_stages hascii hlower, getLast?_stages_stem hascii hlength, hstem, ?_⟩
    rw [Text.utf8ByteSize_eq_length hstem.ascii, Text.utf8ByteSize_eq_length hascii]
    exact hstem.length_le
  · exact h.elim two_le_of_endsWithDoubleConsonant length_le_of_hasEnding
  · exact three_le_of_endsWithShortSyllable h
  · obtain ⟨hdocuments, hconfig, rfl⟩ := Index.build_eq_ok_iff.1 hbuild
    have hdocuments' : ((IndexBuilder.new config ⟨tokenizer, before⟩).addAll documents).2 = none :=
      IndexBuilder.addAll_new_eq_none_iff.2 (IndexBuilder.addAll_new_eq_none_iff.1 hdocuments)
    have hnames : config.fieldNames.Nodup := (Config.validate_eq_ok_iff.1 hconfig).nodup
    have hnodup := IndexBuilder.nodup_references hdocuments
    refine ⟨_, Index.build_eq_ok_iff.2 ⟨hdocuments', hconfig, rfl⟩, fun name f hf hempty => ?_⟩
    obtain ⟨d, hd, text, htext, htoken⟩ := (mem_vocabulary_build_iff hnames hnodup hf).1 hempty
    obtain ⟨f', hf'⟩ : ∃ f',
        (build config ⟨tokenizer, before⟩ documents).field? name = some f' := by
      rw [field?_build hnames] at hf ⊢
      obtain ⟨hname, -⟩ := Option.ite_none_right_eq_some.1 hf
      exact ⟨_, if_pos hname⟩
    exact ⟨f', hf', (mem_vocabulary_build_iff hnames hnodup hf').2
      ⟨d, hd, text, htext, exists_empty_token hafter htoken⟩⟩

/-- A tokenizer of words with a filter that takes the digits out of them. This may leave nothing. -/
def Sample.withoutDigits : Pipeline :=
  ⟨.word, [.custom "strip_digits" fun t =>
    some (t.withText (String.ofList (t.text.toList.filter fun c => !c.isDigit)))]⟩

/-- A short word, a longer one, and a vocabulary with an empty term that the stemmer does not
answer for. -/
theorem stem_shortens_sample :
    (stem "Relational" = "relat" ∧ StageOf "Relational".toList (stem "Relational").toList) ∧
    stem "Is" = "Is" ∧ 2 ≤ "hopp".toList.length ∧ 3 ≤ "fil".toList.length ∧
    ∃ index f, Index.build Sample.config ⟨.word, Sample.withoutDigits.filters ++ [.porter]⟩
        [⟨"a", .ofList [("body", "7 apples")]⟩] = .ok index ∧
      index.inverted.field? "body" = some f ∧ "" ∈ f.vocabulary ∧
      ∃ index' f', Index.build Sample.config Sample.withoutDigits
          [⟨"a", .ofList [("body", "7 apples")]⟩] = .ok index' ∧
        index'.inverted.field? "body" = some f' ∧ "" ∈ f'.vocabulary := by
  obtain ⟨hword, hother, hdouble, hshort, -, hvocabulary⟩ := stem_shortens
  obtain ⟨-, -, hstem, -⟩ := hword "Relational" (by decide) (by decide)
  refine ⟨⟨by decide +kernel, hstem⟩, hother "Is" (by decide), hdouble _ (.inl (by decide)),
    hshort _ (by decide), _, _, rfl, rfl, by decide +kernel, ?_⟩
  obtain ⟨index', hbuild, hfields⟩ := hvocabulary Sample.config .word
    Sample.withoutDigits.filters [] [⟨"a", .ofList [("body", "7 apples")]⟩] _ nofun rfl
  obtain ⟨f', hf', hempty⟩ := hfields "body" _ rfl (by decide +kernel)
  exact ⟨index', f', hbuild, hf', hempty⟩

end Porter

/-! ### English vocabularies -/

open InvertedIndex in
/-- **The terms of English text are well formed.** The terms of every vocabulary that is built of
documents are not empty and hold no white space, no hyphen and no capital. The same is true of the
tokens of a text, and if the text has no star, none of them has one. So the clauses that an exact or
fuzzy clause is normalized to differ from it in their terms only, and none is a pattern. -/
theorem Index.english_vocabulary :
    (∀ (config : Config) (documents : List Document) (index : Index),
      Index.build config .english documents = .ok index →
      ∀ name f, index.inverted.field? name = some f → ∀ term ∈ f.vocabulary,
        EnglishTerm term ∧ '\n' ∉ term.toList) ∧
    (∀ text : String, '*' ∉ text.toList → ∀ t ∈ Pipeline.english.analyze text,
      EnglishTerm t.text ∧ '*' ∉ t.text.toList) ∧
    ∀ (index : Index) (c : Clause), index.pipeline = .english → c.isPattern = false →
      '*' ∉ c.term.toList →
      index.normalize c = (Pipeline.english.analyze c.term).map fun t =>
        { c with term := t.text, stars := .none } := by
  refine ⟨fun config documents index hbuild name f hf term hterm => ?_, fun text htext t ht => ?_,
    fun index c hpipeline hpattern hterm => ?_⟩
  · obtain ⟨hdocuments, hconfig, rfl⟩ := Index.build_eq_ok_iff.1 hbuild
    obtain ⟨-, -, text, -, t, ht, rfl⟩ :=
      (mem_vocabulary_build_iff (Config.validate_eq_ok_iff.1 hconfig).nodup
        (IndexBuilder.nodup_references hdocuments) hf).1 hterm
    have henglish := Pipeline.englishTerm_of_mem ht
    exact ⟨henglish, henglish.lineFeed_notMem⟩
  · exact ⟨Pipeline.englishTerm_of_mem ht, Pipeline.star_notMem_english htext ht⟩
  · rw [Index.normalize, if_neg (by simp [hpattern]), hpipeline]
    refine List.map_congr_left fun t ht => ?_
    rw [Clause.withTerm,
      StarPlacement.classify_eq_none_iff.2 (Pipeline.star_notMem_english hterm ht)]

theorem Index.english_vocabulary_sample :
    ∃ index f, Index.build Sample.config .english Sample.documents = .ok index ∧
      index.inverted.field? "body" = some f ∧ f.vocabulary = ["green", "leav", "tea"] ∧
      (∀ term ∈ f.vocabulary, EnglishTerm term ∧ '\n' ∉ term.toList) ∧
      (∀ t ∈ Pipeline.english.analyze "Green-Teas", EnglishTerm t.text ∧ '*' ∉ t.text.toList) ∧
      index.normalize { Clause.ofTerm "Green-Teas" with distance := some 1 } =
        [{ Clause.ofTerm "green" with distance := some 1 },
          { Clause.ofTerm "tea" with distance := some 1 }] := by
  obtain ⟨hterms, htokens, hclauses⟩ := Index.english_vocabulary
  refine ⟨_, _, rfl, rfl, by decide +kernel,
    hterms Sample.config Sample.documents _ rfl "body" _ rfl, htokens "Green-Teas" (by decide), ?_⟩
  rw [hclauses _ _ rfl rfl (by decide)]
  decide +kernel

end FullText
