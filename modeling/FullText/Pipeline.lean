import FullText.Filter
import FullText.Text.Quoted
import FullText.Tokenizer

/-!
# Pipelines

A pipeline is a tokenizer followed by filters. It turns the text of a document into the tokens that
are indexed, and the term of a query into the tokens that are looked up.

A wildcard pattern is not taken apart into tokens. Its stars stay where they are, and each literal
part between them is folded by all filters.

## Main definitions

* `Pipeline` : a tokenizer with filters.
* `Pipeline.english` : the pipeline for English text.
* `Pipeline.analyze` : the tokens of a text.
* `Pipeline.foldPattern` : the normal form of a pattern.
* `Pipeline.signature` : what identifies a pipeline.
* `Pipeline.describe` : a description for a reader.

## Main results

* `Pipeline.mem_analyze_iff` : a token of a text is what the filters make of one of its raw tokens.
-/

namespace FullText

/-- A tokenizer followed by filters. -/
structure Pipeline where
  /-- The tokenizer. -/
  tokenizer : Tokenizer
  /-- The filters, in the order in which they are applied. -/
  filters : List Filter

namespace Pipeline

/-- The pipeline for English text. Tokens are separated by white space and hyphens, lose the signs
at their ends, are turned into small letters, and are reduced to stems unless they are too common
to be kept. -/
def english : Pipeline := ⟨.separator, [.trimmer, .lowercase, .englishStops, .porter]⟩

/-- What a list of filters makes of a token. -/
def runFilters : List Filter → Token → Option Token
  | [], t => some t
  | f :: rest, t => (f.apply t).bind (runFilters rest)

/-- What the filters make of a token. -/
def runToken (p : Pipeline) (t : Token) : Option Token := runFilters p.filters t

/-- The tokens of a text. -/
def analyze (p : Pipeline) (text : String) : List Token :=
  (p.tokenizer.tokens text).filterMap p.runToken

/-- What the filters make of a term that is not taken apart. -/
def runTerm (p : Pipeline) (term : String) : Option String :=
  (p.runToken (.single term)).map (·.text)

/-- What the filters make of a literal part of a pattern. -/
def foldLiteral (p : Pipeline) (literal : String) : String :=
  p.filters.foldl (fun s f => f.foldLiteral s) literal

/-- The normal form of a pattern: its literal parts are folded, its stars are kept. -/
def foldPattern (p : Pipeline) (pattern : String) : String :=
  "*".intercalate
    ((Text.splitWhere (fun c => decide (c = '*')) pattern.toList).map
      fun literal => p.foldLiteral (String.ofList literal))

/-- The names of the filters. -/
def filterNames (p : Pipeline) : List String := p.filters.map (·.name)

/-- What identifies the pipeline: the signatures of the tokenizer and of the filters. -/
def signature (p : Pipeline) : List String :=
  p.tokenizer.signature :: p.filters.map (·.signature)

/-- A description of the pipeline by the names of its parts. -/
def describe (p : Pipeline) : String :=
  "Pipeline \x7b tokenizer: " ++ Text.quoted p.tokenizer.name ++ ", filters: " ++
    Text.quotedList p.filterNames ++ " \x7d"

/-- A token of a text is what the filters make of one of its raw tokens. -/
theorem mem_analyze_iff {p : Pipeline} {text : String} {t : Token} :
    t ∈ p.analyze text ↔ ∃ raw ∈ p.tokenizer.tokens text, p.runToken raw = some t :=
  List.mem_filterMap

end Pipeline

end FullText
