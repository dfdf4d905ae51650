import FullText.SortedMap
import FullText.Stemmer.Porter
import FullText.Text.Blank
import FullText.Text.Numeric
import FullText.Token

/-!
# Token filters

A filter changes the text of a token or drops the token; it sees one token at a time. The same
filters run over the texts of documents and over the terms of queries. The literal parts of a
wildcard pattern are no whole words, so they are only changed by the filter that folds case.

A filter has a name and a signature. The signature also tells the settings of the filter, as far as
they are known: a filter given by a function is known by its name alone.

A function only says what becomes of a token. A filter that is given by one leaves the literal parts
of patterns as they are and has its name as its signature; it can change neither.

## Main definitions

* `Filter` : the filters.
* `Filter.apply` : the effect on a token.
* `Filter.foldLiteral` : the effect on a literal part of a pattern.
* `Filter.name`, `Filter.signature` : what a filter is called and known by.
-/

namespace FullText

/-- A filter of tokens. -/
inductive Filter
  /-- Takes off the characters at both ends that are neither letters, numbers nor `_`. -/
  | trimmer
  /-- Turns all letters into small ones. -/
  | lowercase
  /-- Drops the tokens whose text is a stop word. -/
  | stopWords (words : SortedSet String)
  /-- Replaces words by their stems. -/
  | stemmer (s : Stemmer)
  /-- Does what a function does, to tokens only: literal parts of patterns stay as they are, and the
  signature is the name. -/
  | custom (name : String) (change : Token → Option Token)

namespace Filter

/-- The English words that are too common to be searched for. -/
def englishStopWords : List String := [
  "a", "an", "and", "are", "as", "at", "be", "but", "by", "for", "if", "in", "into", "is", "it",
  "no", "not", "of", "on", "or", "such", "that", "the", "their", "then", "there", "these", "they",
  "this", "to", "was", "will", "with"]

/-- The filter that drops the words of a list. -/
def stopList (words : List String) : Filter := stopWords (SortedSet.ofElements words)

/-- The filter that drops the common English words. -/
def englishStops : Filter := stopList englishStopWords

/-- The filter of the stemmer of Porter. -/
def porter : Filter := stemmer .porter

/-- Whether a character is kept at the ends of a token. -/
def isWordEdge (c : Char) : Bool := Text.isAlphanumeric c || c = '_'

/-- A text without the characters at its ends that are neither letters, numbers nor `_`. -/
def trim (text : String) : String :=
  String.ofList (Text.trimWhere (fun c => !isWordEdge c) text.toList)

/-- The effect of a filter on a token, which may drop it. -/
def apply : Filter → Token → Option Token
  | trimmer, t => if (trim t.text).isEmpty then none else some (t.withText (trim t.text))
  | lowercase, t => some (t.withText (Text.lowercase t.text))
  | stopWords words, t => if words.contains t.text then none else some t
  | stemmer s, t => some (t.withText (s.stem t.text))
  | custom _ change, t => change t

/-- The effect of a filter on a literal part of a pattern. -/
def foldLiteral : Filter → String → String
  | lowercase, s => Text.lowercase s
  | _, s => s

/-- The name of a filter. -/
def name : Filter → String
  | trimmer => "trimmer"
  | lowercase => "lowercase"
  | stopWords _ => "stop_words"
  | stemmer _ => "stemmer"
  | custom name _ => name

/-- The name of a filter with its settings. -/
def signature : Filter → String
  | stopWords words => "stop_words(" ++ ",".intercalate words.toList ++ ")"
  | stemmer s => "stemmer(" ++ s.name ++ ")"
  | f => f.name

end Filter

end FullText
