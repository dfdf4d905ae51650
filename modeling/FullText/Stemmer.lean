/-!
# Stemmers

A stemmer maps the forms of a word to a common stem, which need not be a word itself.

## Main definitions

* `Stemmer` : a named map from words to stems.
-/

namespace FullText

/-- A named map from words to stems. -/
structure Stemmer where
  /-- The name, as it appears in signatures. -/
  name : String
  /-- The stem of a word. -/
  stem : String → String

end FullText
