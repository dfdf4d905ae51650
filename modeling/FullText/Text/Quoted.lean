import FullText.Text.Hidden

/-!
# Quoted text

Names in descriptions stand between quotation marks, so that it can be seen where they begin and
end. Quotation marks and backslashes in a name get a backslash in front, line breaks, tabs and the
null character are written as a backslash with a letter or digit, and other hidden characters by
their code points.

## Main definitions

* `quoted` : a text between quotation marks.
* `quotedList` : a list of texts, each between quotation marks.
-/

namespace FullText.Text

/-- A character as it stands between quotation marks. -/
def quotedChar (c : Char) : List Char :=
  if c = '"' ∨ c = '\\' then ['\\', c]
  else if c = '\n' then ['\\', 'n']
  else if c = '\r' then ['\\', 'r']
  else if c = '\t' then ['\\', 't']
  else if c.toNat = 0 then ['\\', '0']
  else if isHidden c then ['\\', 'u', '\x7b'] ++ Nat.toDigits 16 c.toNat ++ ['\x7d']
  else [c]

/-- A text between quotation marks. -/
def quoted (s : String) : String := String.ofList ('"' :: (s.toList.flatMap quotedChar ++ ['"']))

/-- A list of texts, each between quotation marks. -/
def quotedList (ss : List String) : String := "[" ++ ", ".intercalate (ss.map quoted) ++ "]"

end FullText.Text
