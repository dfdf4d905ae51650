import FullText.Proofs.PatternFolding
import FullText.Proofs.SnapshotRoundTrip

/-!
# What the signature of a pipeline tells

A snapshot is read with a pipeline whose signature is the recorded one. The signature names the
tokenizer with its pattern and each filter with its settings, for the pipelines made of the parts of
this library, so that it tells them apart up to one thing: a list of stop words is written with
commas between the words, and a comma inside a word looks the same. The list of the empty word alone
looks like the list without words. Lists with neither are told apart, and then pipelines with the
same signature are the same.

The language of patterns is a parameter here: any map from the sources of patterns to the ways in
which they cut texts into segments. Each such way makes a tokenizer (`Tokenizer.ofSegments`).

## Main definitions

* `Filter.BuiltIn`, `Pipeline.BuiltIn` : the filters and the pipelines of this library.
* `Filter.Alike` : filters that signatures do not tell apart.
* `IsPlainStopList` : stop words that can be told from their list.
* `Pipeline.HasPlainStops` : pipelines whose stop words can be told from their signature.

## Main results

* `Pipeline.signature_eq_iff` : what equal signatures mean.
* `Pipeline.eq_of_signature_eq` : with plain stop words the signature determines the pipeline.
* `Index.ofText_toText_eq_ok_iff` and its companions : who can read the snapshots of an index.
* `Pipeline.signature_identifies` : pipelines with one signature normalize alike, and so do an index
  and the index read from its snapshot.
-/

namespace FullText

/-! ### Stop words -/

/-- Stop words that can be told from their list: no word holds the comma that separates words, and
the empty word does not stand alone. -/
structure IsPlainStopList (words : SortedSet String) : Prop where
  /-- No word holds a comma. -/
  comma_notMem : ∀ w ∈ words.toList, ',' ∉ w.toList
  /-- The list of the empty word looks like the list without words. -/
  ne_empty : words.toList ≠ [""]

/-- The words of a list that is not empty are found between its commas. -/
theorem IsPlainStopList.splitWhere_intercalate {words : SortedSet String}
    (h : IsPlainStopList words) (hne : words.toList ≠ []) :
    Text.splitWhere (fun c => decide (c = ',')) (",".intercalate words.toList).toList =
      words.toList.map String.toList := by
  rw [String.toList_intercalate]
  refine Text.splitWhere_intercalate (c := ',') rfl (by simpa using hne) fun l hl c hc => ?_
  obtain ⟨w, hw, rfl⟩ := List.mem_map.1 hl
  refine decide_eq_false ?_
  rintro rfl
  exact h.comma_notMem w hw hc

/-- A list of words that looks like no word at all is the list without words. -/
theorem IsPlainStopList.toList_eq_nil {words : SortedSet String} (h : IsPlainStopList words)
    (hempty : ",".intercalate words.toList = "") : words.toList = [] := by
  by_contra hne
  have hsplit := h.splitWhere_intercalate hne
  rw [hempty] at hsplit
  refine h.ne_empty (List.map_injective_iff.2 (fun _ _ => String.toList_inj.1) ?_)
  exact hsplit.symm

/-- **Plain stop words can be told from their list.** -/
theorem IsPlainStopList.eq_of_intercalate_eq {v w : SortedSet String} (hv : IsPlainStopList v)
    (hw : IsPlainStopList w) (h : ",".intercalate v.toList = ",".intercalate w.toList) : v = w := by
  refine SortedSet.ext_toList ?_
  by_cases hvne : v.toList = []
  · rw [hvne] at h
    rw [hvne, hw.toList_eq_nil h.symm]
  · by_cases hwne : w.toList = []
    · rw [hwne] at h
      exact absurd (hv.toList_eq_nil h) hvne
    · have hsplit := hv.splitWhere_intercalate hvne
      rw [h, hw.splitWhere_intercalate hwne] at hsplit
      exact (List.map_injective_iff.2 (fun _ _ => String.toList_inj.1) hsplit).symm

/-! ### Filters -/

namespace Filter

/-- The filters of this library. -/
inductive BuiltIn : Filter → Prop
  /-- The filter that trims. -/
  | trimmer : BuiltIn .trimmer
  /-- The filter that folds case. -/
  | lowercase : BuiltIn .lowercase
  /-- The filter that drops stop words. -/
  | stopWords (words : SortedSet String) : BuiltIn (.stopWords words)
  /-- The filter that stems. -/
  | porter : BuiltIn .porter

/-- Filters that their signatures do not tell apart: they are the same, or they drop stop words
whose lists look the same. -/
inductive Alike : Filter → Filter → Prop
  /-- A filter is like itself. -/
  | refl (f : Filter) : Alike f f
  /-- Two sets of stop words may be written as the same list. -/
  | stopWords {v w : SortedSet String}
      (h : ",".intercalate v.toList = ",".intercalate w.toList) :
      Alike (.stopWords v) (.stopWords w)

theorem signature_stopWords_inj {v w : SortedSet String} :
    (stopWords v).signature = (stopWords w).signature ↔
      ",".intercalate v.toList = ",".intercalate w.toList := by
  simp [signature, String.append_left_inj, String.append_right_inj]

/-- Filters of different kinds have different signatures. -/
theorem signature_eq_iff {f g : Filter} (hf : f.BuiltIn) (hg : g.BuiltIn) :
    f.signature = g.signature ↔ f.Alike g := by
  constructor
  · intro h
    cases hf <;> cases hg
    case stopWords.stopWords v w => exact .stopWords (signature_stopWords_inj.1 h)
    all_goals first
      | exact .refl _
      | exact absurd (congrArg String.toList h) (by simp [signature, name, porter, Stemmer.porter])
  · rintro (_ | h)
    · rfl
    · exact signature_stopWords_inj.2 h

/-- Filters are told apart one by one. -/
theorem map_signature_eq_iff {fs gs : List Filter} (hfs : ∀ f ∈ fs, f.BuiltIn)
    (hgs : ∀ g ∈ gs, g.BuiltIn) :
    fs.map signature = gs.map signature ↔ List.Forall₂ Alike fs gs := by
  induction fs generalizing gs with
  | nil => simp [eq_comm]
  | cons f fs ih =>
    cases gs with
    | nil => simp
    | cons g gs =>
      obtain ⟨hf, hfs⟩ := List.forall_mem_cons.1 hfs
      obtain ⟨hg, hgs⟩ := List.forall_mem_cons.1 hgs
      rw [List.map_cons, List.map_cons, List.cons.injEq, List.forall₂_cons,
        signature_eq_iff hf hg, ih hfs hgs]

/-- Filters that are alike do the same to the literal parts of patterns. -/
theorem Alike.foldLiteral_eq {f g : Filter} (h : f.Alike g) : f.foldLiteral = g.foldLiteral := by
  cases h <;> rfl

/-- A filter whose stop words, if it has any, can be told from their list. -/
def IsPlain (f : Filter) : Prop := ∀ words, f = .stopWords words → IsPlainStopList words

theorem Alike.eq_of_isPlain {f g : Filter} (h : f.Alike g) (hf : f.IsPlain) (hg : g.IsPlain) :
    f = g := by
  cases h with
  | refl => rfl
  | stopWords h => rw [(hf _ rfl).eq_of_intercalate_eq (hg _ rfl) h]

/-- Filters that are alike one by one are the same if all stop words are plain. -/
theorem eq_of_forall_alike {fs gs : List Filter} (h : List.Forall₂ Alike fs gs)
    (hfs : ∀ f ∈ fs, f.IsPlain) (hgs : ∀ g ∈ gs, g.IsPlain) : fs = gs := by
  induction h with
  | nil => rfl
  | cons halike _ ih =>
    obtain ⟨hf, hfs⟩ := List.forall_mem_cons.1 hfs
    obtain ⟨hg, hgs⟩ := List.forall_mem_cons.1 hgs
    rw [halike.eq_of_isPlain hf hg, ih hfs hgs]

end Filter

/-! ### Tokenizers -/

/-- A pattern keeps the text that it was read from. -/
theorem TokenPattern.source_of_parse {source : String} {p : TokenPattern}
    (h : parse source = .ok p) : p.source = source := by
  rw [parse] at h
  split at h
  · split at h
    · cases h
      rfl
    · cases h
  · cases h

namespace Tokenizer

/-- The signature tells the source of a pattern and the way of extraction. -/
theorem signature_ofSegments_inj {source source' : String}
    {segments segments' : List Char → List TokenPattern.Segment} {e e' : Extraction}
    (h : (ofSegments source segments e).signature = (ofSegments source' segments' e').signature) :
    e = e' ∧ source = source' := by
  cases e <;> cases e' <;>
    simp [ofSegments, Extraction.name, ← String.toList_inj] at h ⊢ <;> exact h

end Tokenizer

/-! ### Pipelines -/

namespace Pipeline

section Language

variable {compile : String → Option (List Char → List TokenPattern.Segment)}

variable (compile) in
/-- The pipelines of this library: a tokenizer of a pattern, followed by filters of this library. -/
structure BuiltIn (p : Pipeline) : Prop where
  /-- The pattern of the tokenizer has a meaning in the language of patterns. -/
  tokenizer : ∃ source segments e, compile source = some segments ∧
    p.tokenizer = .ofSegments source segments e
  /-- The filters are those of this library. -/
  filters : ∀ f ∈ p.filters, f.BuiltIn

/-- A pipeline whose stop words can be told from its signature. -/
def HasPlainStops (p : Pipeline) : Prop := ∀ f ∈ p.filters, f.IsPlain

variable {p q : Pipeline} (hp : p.BuiltIn compile) (hq : q.BuiltIn compile)

include hp hq

/-- **What equal signatures mean:** the same tokenizer, and filters that are alike one by one. -/
theorem signature_eq_iff : p.signature = q.signature ↔
    p.tokenizer = q.tokenizer ∧ List.Forall₂ Filter.Alike p.filters q.filters := by
  rw [signature, signature, List.cons.injEq, Filter.map_signature_eq_iff hp.filters hq.filters]
  refine and_congr_left fun _ => ⟨fun h => ?_, congrArg Tokenizer.signature⟩
  obtain ⟨source, segments, e, hcompile, htokenizer⟩ := hp.tokenizer
  obtain ⟨source', segments', e', hcompile', htokenizer'⟩ := hq.tokenizer
  rw [htokenizer, htokenizer'] at h ⊢
  obtain ⟨rfl, rfl⟩ := Tokenizer.signature_ofSegments_inj h
  rw [Option.some.inj (hcompile.symm.trans hcompile')]

/-- Pipelines with one signature fold patterns in the same way, whatever their stop words. -/
theorem foldPattern_eq_of_signature_eq (h : p.signature = q.signature) (pattern : String) :
    p.foldPattern pattern = q.foldPattern pattern := by
  obtain ⟨-, hfilters⟩ := (signature_eq_iff hp hq).1 h
  have hliteral (s : String) : p.foldLiteral s = q.foldLiteral s := by
    rw [foldLiteral, foldLiteral]
    generalize p.filters = fs, q.filters = gs at hfilters
    induction hfilters generalizing s with
    | nil => rfl
    | cons halike _ ih => rw [List.foldl_cons, List.foldl_cons, halike.foldLiteral_eq, ih]
  rw [foldPattern, foldPattern]
  simp only [hliteral]

/-- **With plain stop words the signature determines the pipeline.** -/
theorem eq_of_signature_eq (hplain : p.HasPlainStops) (hplain' : q.HasPlainStops)
    (h : p.signature = q.signature) : p = q := by
  obtain ⟨htokenizer, hfilters⟩ := (signature_eq_iff hp hq).1 h
  have hsame := Filter.eq_of_forall_alike hfilters hplain hplain'
  cases p
  cases q
  rw [Pipeline.mk.injEq]
  exact ⟨htokenizer, hsame⟩

end Language

end Pipeline

/-! ### Snapshots -/

namespace Index

section Snapshots

variable {p q : Pipeline} {index loaded : Index} (hindex : index.Obtained p)
  (hmemory : index.toBytes.length < UInt64.size)

/-- The snapshot of an index is restored with exactly the pipelines of its signature. -/
theorem restore_ofIndex_eq_ok_iff (h : index.inverted.fault? = none) :
    (Snapshot.ofIndex index).restore q = .ok loaded ↔
      q.signature = index.pipeline.signature ∧ loaded = ⟨index.inverted, q⟩ := by
  rw [restore_eq_ok_iff]
  exact ⟨fun ⟨hsignature, _, hloaded⟩ => ⟨hsignature, hloaded⟩,
    fun ⟨hsignature, hloaded⟩ => ⟨hsignature, h, hloaded⟩⟩

include hindex hmemory

/-- The JSON text of an index is read with exactly the pipelines of its signature. -/
theorem ofText_toText_eq_ok_iff : ofText index.toText q = .ok loaded ↔
    q.signature = p.signature ∧ loaded = ⟨index.inverted, q⟩ := by
  have hstorable := hindex.storable hmemory
  rw [ofText, toText, Snapshot.parse?_compact hstorable.finite, ← hindex.pipeline_eq]
  exact restore_ofIndex_eq_ok_iff hstorable.consistent

/-- The indented JSON text of an index is read with exactly the pipelines of its signature. -/
theorem ofText_toIndentedText_eq_ok_iff : ofText index.toIndentedText q = .ok loaded ↔
    q.signature = p.signature ∧ loaded = ⟨index.inverted, q⟩ := by
  have hstorable := hindex.storable hmemory
  rw [ofText, toIndentedText, Snapshot.parse?_pretty hstorable.finite, ← hindex.pipeline_eq]
  exact restore_ofIndex_eq_ok_iff hstorable.consistent

/-- The bytes of an index are read with exactly the pipelines of its signature. -/
theorem ofBytes_toBytes_eq_ok_iff : ofBytes index.toBytes q = .ok loaded ↔
    q.signature = p.signature ∧ loaded = ⟨index.inverted, q⟩ := by
  have hread := Snapshot.codec.reads (Snapshot.ofIndex index) [] hmemory
  rw [List.append_nil] at hread
  rw [ofBytes, toBytes, hread, ← hindex.pipeline_eq]
  exact restore_ofIndex_eq_ok_iff (hindex.storable hmemory).consistent

end Snapshots

end Index

namespace Pipeline

/-- **What the signature of a pipeline tells.** Pipelines with one signature fold patterns in the
same way, and find the same tokens if their stop words are plain. So do an index and the index that
is read from one of its snapshots with another pipeline. -/
theorem signature_identifies {compile : String → Option (List Char → List TokenPattern.Segment)}
    {p q : Pipeline} (hp : p.BuiltIn compile) (hq : q.BuiltIn compile) :
    (p.signature = q.signature →
      (∀ pattern, p.foldPattern pattern = q.foldPattern pattern) ∧
      (p.HasPlainStops → q.HasPlainStops → ∀ text, p.analyze text = q.analyze text)) ∧
    ∀ index : Index, index.Obtained p → index.toBytes.length < UInt64.size → ∀ loaded,
      (Index.ofText index.toText q = .ok loaded ∨ Index.ofText index.toIndentedText q = .ok loaded ∨
        Index.ofBytes index.toBytes q = .ok loaded) →
      (∀ pattern, index.pipeline.foldPattern pattern = loaded.pipeline.foldPattern pattern) ∧
      (p.HasPlainStops → q.HasPlainStops →
        ∀ text, index.pipeline.analyze text = loaded.pipeline.analyze text) := by
  have hsame (h : p.signature = q.signature) :
      (∀ pattern, p.foldPattern pattern = q.foldPattern pattern) ∧
      (p.HasPlainStops → q.HasPlainStops → ∀ text, p.analyze text = q.analyze text) := by
    refine ⟨foldPattern_eq_of_signature_eq hp hq h, fun hplain hplain' text => ?_⟩
    rw [eq_of_signature_eq hp hq hplain hplain' h]
  refine ⟨hsame, fun index hindex hmemory loaded hload => ?_⟩
  obtain ⟨hsignature, rfl⟩ : q.signature = p.signature ∧ loaded = ⟨index.inverted, q⟩ := by
    rcases hload with hload | hload | hload
    · exact (Index.ofText_toText_eq_ok_iff hindex hmemory).1 hload
    · exact (Index.ofText_toIndentedText_eq_ok_iff hindex hmemory).1 hload
    · exact (Index.ofBytes_toBytes_eq_ok_iff hindex hmemory).1 hload
  rw [hindex.pipeline_eq]
  exact hsame hsignature.symm

/-- The language of patterns that this library reads. -/
def Sample.compile (source : String) : Option (List Char → List TokenPattern.Segment) :=
  (TokenPattern.parse source).toOption.map TokenPattern.segments

/-- Every pattern that this library reads can be put in front of filters of this library. -/
theorem Sample.builtIn_ofPattern {source : String} {pattern : TokenPattern}
    (hparse : TokenPattern.parse source = .ok pattern) (e : Tokenizer.Extraction)
    {filters : List Filter} (hfilters : ∀ f ∈ filters, f.BuiltIn) :
    BuiltIn Sample.compile ⟨.ofPattern pattern e, filters⟩ where
  tokenizer := by
    refine ⟨source, pattern.segments, e, ?_, ?_⟩
    · rw [Sample.compile, hparse]
      rfl
    · rw [Tokenizer.ofPattern_eq, TokenPattern.source_of_parse hparse]
  filters := hfilters

/-- A pipeline that drops the words of a list. -/
def Sample.dropping (words : List String) : Pipeline := ⟨.word, [.lowercase, .stopList words]⟩

theorem Sample.builtIn_dropping (words : List String) :
    (Sample.dropping words).BuiltIn Sample.compile :=
  Sample.builtIn_ofPattern (show TokenPattern.parse "\\w+" = .ok .word from rfl) .matched
    (List.forall_mem_cons.2 ⟨.lowercase, List.forall_mem_singleton.2 (.stopWords _)⟩)

/-- The two documents make up an index with such a pipeline. -/
theorem Sample.obtained_dropping (words : List String) :
    Index.Obtained (Sample.dropping words)
      ⟨.build Sample.config (Sample.dropping words) Sample.documents, Sample.dropping words⟩ := by
  have hreached : IndexBuilder.Reached Sample.config (Sample.dropping words)
      ((IndexBuilder.new Sample.config (Sample.dropping words)).addAll Sample.documents).1 :=
    IndexBuilder.Reached.new.addAll Sample.documents
  exact .built hreached rfl

theorem signature_identifies_sample :
    (∀ text, (Sample.dropping ["a", "b"]).analyze text =
      (Sample.dropping ["b", "a"]).analyze text) ∧
    ∃ index loaded, Index.build Sample.config (Sample.dropping ["a", "b"]) Sample.documents =
        .ok index ∧
      Index.ofText index.toText (Sample.dropping ["b", "a"]) = .ok loaded ∧
      ∀ text, index.pipeline.analyze text = loaded.pipeline.analyze text := by
  have hsignature : (Sample.dropping ["a", "b"]).signature =
      (Sample.dropping ["b", "a"]).signature := by decide +kernel
  have hplain (words : List String) (hwords : IsPlainStopList (SortedSet.ofElements words)) :
      (Sample.dropping words).HasPlainStops := by
    refine List.forall_mem_cons.2 ⟨nofun, List.forall_mem_singleton.2 fun v hv => ?_⟩
    rwa [← Filter.stopWords.inj hv]
  have hplains : (Sample.dropping ["a", "b"]).HasPlainStops ∧
      (Sample.dropping ["b", "a"]).HasPlainStops :=
    ⟨hplain _ ⟨by decide +kernel, by decide +kernel⟩,
      hplain _ ⟨by decide +kernel, by decide +kernel⟩⟩
  obtain ⟨hsame, hload⟩ := signature_identifies (Sample.builtIn_dropping ["a", "b"])
    (Sample.builtIn_dropping ["b", "a"])
  have hobtained := Sample.obtained_dropping ["a", "b"]
  have hmemory : (Index.mk (.build Sample.config (Sample.dropping ["a", "b"]) Sample.documents)
      (Sample.dropping ["a", "b"])).toBytes.length < UInt64.size := by decide +kernel
  have hread := (Index.ofText_toText_eq_ok_iff hobtained hmemory).2 ⟨hsignature.symm, rfl⟩
  exact ⟨(hsame hsignature).2 hplains.1 hplains.2, _, _, rfl, hread,
    (hload _ hobtained hmemory _ (.inl hread)).2 hplains.1 hplains.2⟩

/-- A comma in a stop word goes unnoticed: the index that is read drops the words `a` and `b`, which
the pipeline it was built with keeps. -/
theorem signature_confuses_commas :
    (Sample.dropping ["a,b"]).BuiltIn Sample.compile ∧
    (Sample.dropping ["a", "b"]).BuiltIn Sample.compile ∧
    (Sample.dropping ["a,b"]).signature = (Sample.dropping ["a", "b"]).signature ∧
    (Sample.dropping ["a,b"]).analyze "a" ≠ (Sample.dropping ["a", "b"]).analyze "a" ∧
    ∃ index, Index.build Sample.config (Sample.dropping ["a,b"]) Sample.documents = .ok index ∧
      Index.ofText index.toText (Sample.dropping ["a", "b"]) =
        .ok ⟨index.inverted, Sample.dropping ["a", "b"]⟩ ∧
      Index.ofBytes index.toBytes (Sample.dropping ["a", "b"]) =
        .ok ⟨index.inverted, Sample.dropping ["a", "b"]⟩ := by
  have hsignature : (Sample.dropping ["a,b"]).signature =
      (Sample.dropping ["a", "b"]).signature := by decide +kernel
  have hobtained := Sample.obtained_dropping ["a,b"]
  have hmemory : (Index.mk (.build Sample.config (Sample.dropping ["a,b"]) Sample.documents)
      (Sample.dropping ["a,b"])).toBytes.length < UInt64.size := by decide +kernel
  exact ⟨Sample.builtIn_dropping _, Sample.builtIn_dropping _, hsignature, by decide +kernel, _,
    rfl, (Index.ofText_toText_eq_ok_iff hobtained hmemory).2 ⟨hsignature.symm, rfl⟩,
    (Index.ofBytes_toBytes_eq_ok_iff hobtained hmemory).2 ⟨hsignature.symm, rfl⟩⟩

end Pipeline

end FullText
