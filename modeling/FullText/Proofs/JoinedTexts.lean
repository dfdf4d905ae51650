import FullText.Document
import FullText.Proofs.EnglishTokens
import FullText.Proofs.SeparatedRuns
import FullText.Proofs.TokenOrder

/-!
# Texts with a space between them

The pipeline for English text takes two texts with a space between them for what they are: the
tokens of the first come out as if it stood alone, and so do those of the second, moved behind the
first. A space is a separator, whatever separators stand at the ends of the two texts, and no
filter looks at the neighbours of a token or at its place. The texts of an array in a document are
put together with spaces, so that they are indexed one by one.

## Main definitions

* `Token.moved` : a token with other text before it.
* `Pipeline.analyzeEach` : the tokens of texts that follow one another.

## Main results

* `Tokenizer.place_append_cons` : the tokens on both sides of a separator.
* `Pipeline.runFilters_eq` : built-in filters look at nothing but the text of a token.
* `Pipeline.english_joins` : **English analysis is made of its parts.**
-/

namespace FullText

/-- A token with so many tokens and bytes before it. -/
def Token.moved (tokens bytes : Nat) (t : Token) : Token :=
  ⟨t.text, t.position + tokens, t.start + bytes, t.stop + bytes⟩

@[simp] theorem Token.text_moved (n k : Nat) (t : Token) : (t.moved n k).text = t.text := rfl

/-! ### Tokenizers -/

namespace Tokenizer

variable {p : TokenPattern} {position start : Nat} {text : List Char} {ts : List Token}

/-- The bytes of a text are those of its characters. -/
theorem byteLength_toList (s : String) : byteLength s.toList = s.utf8ByteSize := by
  have hlength (text : List Char) : byteLength text = String.utf8Len text := by
    induction text with
    | nil => rfl
    | cons c text ih => rw [byteLength_cons, ih, String.utf8Len_cons, Nat.add_comm]
  rw [hlength, ← String.utf8ByteSize_ofList, String.ofList_toList]

/-- Runs with other text before them are numbered from there on. -/
theorem Runs.moved (n k : Nat) (h : Runs p position start text ts) :
    Runs p (position + n) (start + k) text (ts.map (Token.moved n k)) := by
  induction h with
  | nil position start => exact .nil _ _
  | separator hc _ ih =>
    rw [Nat.add_right_comm] at ih
    exact .separator hc ih
  | @run position start w text ts hne hw hend _ ih =>
    have hposition : position + 1 + n = position + n + 1 := Nat.add_right_comm _ _ _
    have hstop : start + byteLength w + k = start + k + byteLength w := Nat.add_right_comm _ _ _
    rw [hposition, hstop] at ih
    rw [List.map_cons, Token.moved, hstop]
    exact .run hne hw hend ih

/-- The tokens on both sides of a separator are those of the two sides, the second ones moved behind
the first side and the separator. -/
theorem place_append_cons (hp : p.quantifier ≠ .anyNumber) {c : Char}
    (hc : p.charClass.contains c = true) (a b : List Char) :
    place .gaps 0 0 (p.segments (a ++ c :: b)) =
      place .gaps 0 0 (p.segments a) ++ (place .gaps 0 0 (p.segments b)).map
        (Token.moved (place .gaps 0 0 (p.segments a)).length (byteLength a + c.utf8Size)) := by
  have hruns (text : List Char) : Runs p 0 0 text (place .gaps 0 0 (p.segments text)) :=
    (runs_iff hp).2 rfl
  refine ((runs_iff hp).1 ((hruns a).append_cons hc ?_)).symm
  simpa [Nat.add_assoc] using (hruns b).moved _ (byteLength a + c.utf8Size)

end Tokenizer

/-! ### Filters -/

/-- A built-in filter looks at nothing but the text of a token. -/
theorem Filter.apply_eq {f : Filter} (hf : f.IsBuiltIn) (t : Token) :
    f.apply t = (f.apply (.single t.text)).map fun u => t.withText u.text := by
  cases f with
  | trimmer => by_cases htrim : (trim t.text).isEmpty = true <;> simp [apply, Token.single, htrim]
  | lowercase => rfl
  | stopWords words =>
    by_cases hstop : words.contains t.text = true <;>
      simp [apply, Token.single, hstop, Token.withText]
  | stemmer s => rfl
  | custom name change => exact hf.elim

namespace Pipeline

/-- Built-in filters look at nothing but the text of a token. -/
theorem runFilters_eq {filters : List Filter} (hfilters : ∀ f ∈ filters, f.IsBuiltIn) (t : Token) :
    runFilters filters t =
      (runFilters filters (.single t.text)).map fun u => t.withText u.text := by
  induction filters generalizing t with
  | nil => rfl
  | cons f rest ih =>
    obtain ⟨hf, hrest⟩ := List.forall_mem_cons.1 hfilters
    rw [runFilters, runFilters, f.apply_eq hf]
    cases f.apply (.single t.text) with
    | none => rfl
    | some u =>
      rw [Option.map_some, Option.bind_some, Option.bind_some, ih hrest, ih hrest u, Option.map_map]
      rfl

variable {p : Pipeline} (hp : ∀ f ∈ p.filters, f.IsBuiltIn)

include hp

/-- What the filters make of a token does not depend on what stands before it. -/
theorem runToken_moved (n k : Nat) (t : Token) :
    p.runToken (t.moved n k) = (p.runToken t).map (Token.moved n k) := by
  rw [runToken, runFilters_eq hp, runToken, runFilters_eq hp t, Option.map_map, Token.text_moved]
  rfl

/-- What becomes of a token is what becomes of its text, at the place of the token. -/
theorem analyze_eq (text : String) :
    p.analyze text =
      (p.tokenizer.tokens text).filterMap fun t => (p.runTerm t.text).map t.withText := by
  rw [analyze]
  refine List.filterMap_congr fun t _ => ?_
  rw [runToken, runFilters_eq hp, runTerm, runToken, Option.map_map]
  rfl

/-- The filters can be run before tokens are moved or after. -/
theorem filterMap_runToken_moved (n k : Nat) (ts : List Token) :
    (ts.map (Token.moved n k)).filterMap p.runToken =
      (ts.filterMap p.runToken).map (Token.moved n k) := by
  rw [List.filterMap_map, List.map_filterMap]
  exact List.filterMap_congr fun t _ => runToken_moved hp n k t

omit hp

/-- The tokens of texts that follow one another with a space between them. -/
def analyzeEach (p : Pipeline) : List String → List Token
  | [] => []
  | text :: rest => p.analyze text ++ (p.analyzeEach rest).map
      (Token.moved (p.tokenizer.tokens text).length (text.utf8ByteSize + 1))

section Spaces

variable {filters : List Filter} (hfilters : ∀ f ∈ filters, f.IsBuiltIn)

include hfilters

/-- A text with a space in it is analyzed on both sides of the space. -/
theorem analyze_append_space (a b : String) :
    (⟨.separator, filters⟩ : Pipeline).analyze (a ++ " " ++ b) =
      (⟨.separator, filters⟩ : Pipeline).analyze a ++
        ((⟨.separator, filters⟩ : Pipeline).analyze b).map
          (Token.moved (Tokenizer.separator.tokens a).length (a.utf8ByteSize + 1)) := by
  have htext : (a ++ " " ++ b).toList = a.toList ++ ' ' :: b.toList := by simp
  have htokens : Tokenizer.separator.tokens (a ++ " " ++ b) =
      Tokenizer.separator.tokens a ++ (Tokenizer.separator.tokens b).map
        (Token.moved (Tokenizer.separator.tokens a).length (a.utf8ByteSize + 1)) := by
    have hjoin := Tokenizer.place_append_cons (p := .separator) (by decide) (c := ' ') (by decide)
      a.toList b.toList
    rw [← htext, Tokenizer.byteLength_toList] at hjoin
    exact hjoin
  rw [analyze, analyze, analyze, htokens, List.filterMap_append, filterMap_runToken_moved hfilters]

/-- Texts that are put together with spaces are analyzed one by one. -/
theorem analyze_intercalate (texts : List String) :
    (⟨.separator, filters⟩ : Pipeline).analyze (" ".intercalate texts) =
      (⟨.separator, filters⟩ : Pipeline).analyzeEach texts := by
  induction texts with
  | nil => rfl
  | cons text rest ih =>
    cases rest with
    | nil => simp [analyzeEach]
    | cons next rest =>
      rw [String.intercalate_cons_cons, analyze_append_space hfilters, ih]
      rfl

end Spaces

/-- **English analysis is made of its parts.** The tokens of two texts with a space between them are
those of the first, and those of the second moved behind it. What becomes of a token depends on its
text alone, and an array in a document is analyzed like its texts one by one. -/
theorem english_joins :
    (∀ a b : String, english.analyze (a ++ " " ++ b) =
      english.analyze a ++ (english.analyze b).map
        (Token.moved (Tokenizer.separator.tokens a).length (a.utf8ByteSize + 1))) ∧
    (∀ text, english.analyze text = (Tokenizer.separator.tokens text).filterMap fun t =>
      (english.runTerm t.text).map t.withText) ∧
    ∀ items : List Json, ∃ text, Document.fieldText? (.array items) = some text ∧
      english.analyze text = english.analyzeEach (items.filterMap Document.scalarText?) := by
  have hfilters : ∀ f ∈ english.filters, f.IsBuiltIn := by
    simp [english, Filter.englishStops, Filter.stopList, Filter.porter, Filter.IsBuiltIn]
  exact ⟨analyze_append_space hfilters, analyze_eq hfilters,
    fun items => ⟨_, rfl, analyze_intercalate hfilters _⟩⟩

end Pipeline

end FullText
