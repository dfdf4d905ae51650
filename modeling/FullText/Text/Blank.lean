import FullText.Text.CodePointSet
import FullText.Text.Split

/-!
# White space

The property `White_Space` of the Unicode Character Database, and the operations on text that rest
on it: splitting into words and trimming.

## Main definitions

* `isBlank` : the property of a character.
* `isBlankText` : text of white space only.
* `words` : the maximal runs of characters that are not white space.
* `trimWhere` : a text without the characters of a class at its two ends.
* `trimStart` : a text without the white space at its start.
-/

namespace FullText.Text

/-- The code points with the property `White_Space`. -/
def blankRanges : CodePointSet := [
  (0x9, 0xD), (0x20, 0x20), (0x85, 0x85), (0xA0, 0xA0), (0x1680, 0x1680), (0x2000, 0x200A),
  (0x2028, 0x2029), (0x202F, 0x202F), (0x205F, 0x205F), (0x3000, 0x3000)]

/-- Whether a character is white space. -/
def isBlank (c : Char) : Bool := blankRanges.contains c.toNat

/-- Whether a text holds nothing but white space. The empty text does. -/
def isBlankText (s : String) : Bool := s.toList.all isBlank

/-- The words of a text: its maximal runs of characters that are not white space. -/
def words (s : String) : List String :=
  ((splitWhere isBlank s.toList).filter fun w => !w.isEmpty).map String.ofList

/-- A list without the elements of a class at its two ends. -/
def trimWhere (p : Char → Bool) (s : List Char) : List Char :=
  ((s.dropWhile p).reverse.dropWhile p).reverse

/-- A text without the white space before its first other character. -/
def trimStart (s : String) : String := String.ofList (s.toList.dropWhile isBlank)

end FullText.Text
