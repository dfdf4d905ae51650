/-!
# Tokens

A token is a piece of text with its place: the number of the token among the tokens of the text,
and the range of bytes that it was taken from. Filters may change the text of a token and drop
tokens; the places of the others do not change by that.

## Main definitions

* `Token` : a text with its place.
* `Token.withText` : another text at the same place.
-/

namespace FullText

/-- A piece of text with its place. -/
structure Token where
  /-- The text. -/
  text : String
  /-- The number of the token in the text, counted from zero before any token is dropped. -/
  position : Nat
  /-- The offset of the first byte. -/
  start : Nat
  /-- The offset after the last byte. -/
  stop : Nat
  deriving DecidableEq

namespace Token

/-- A token on its own, at the start of no text in particular. -/
def single (text : String) : Token := ⟨text, 0, 0, 0⟩

/-- Another text at the same place. -/
def withText (t : Token) (text : String) : Token := { t with text }

@[simp] theorem text_withText (t : Token) (text : String) : (t.withText text).text = text := rfl

@[simp] theorem position_withText (t : Token) (text : String) :
    (t.withText text).position = t.position := rfl

@[simp] theorem start_withText (t : Token) (text : String) :
    (t.withText text).start = t.start := rfl

@[simp] theorem stop_withText (t : Token) (text : String) :
    (t.withText text).stop = t.stop := rfl

end Token

end FullText
