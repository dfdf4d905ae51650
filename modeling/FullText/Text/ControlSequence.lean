/-!
# Control sequences

A terminal takes some characters as commands. A command that needs more than one character begins
with an escape character and goes on to an end that depends on its kind. Text that is not meant for
a terminal is shown without such commands.

Line breaks and tabs are shown even within the short kinds of sequences. They leave the sequence
open: what follows is shown up to the next control character, from which on the text belongs to the
sequence again.

## Main definitions

* `Sequence` : what is being read, by what may come next.
* `Sequence.next` : the effect of a character.
* `withoutControls` : a text without control characters and sequences.
-/

namespace FullText.Text

/-- The kinds of text for a terminal, by what may come next. -/
inductive Sequence
  /-- Text outside of sequences. -/
  | outside
  /-- A sequence of which only the escape character was read. -/
  | escape
  /-- An escape sequence with signs between its first and its last character. -/
  | extendedEscape
  /-- A control sequence, which ends with a letter. -/
  | control
  /-- A string for a device, at its start. -/
  | deviceStart
  /-- A string for a device, at its parameters. -/
  | deviceParameters
  /-- A string for a device, at the signs after its parameters. -/
  | deviceSigns
  /-- A string that goes on to a string terminator. -/
  | string
  /-- A command to the system, which goes on to a bell. -/
  | systemCommand
  deriving DecidableEq

/-- Whether the code of a character is in a closed range. -/
def codeBetween (first last : Nat) (c : Char) : Bool :=
  decide (first ≤ c.toNat) && decide (c.toNat ≤ last)

/-- Whether a character ends a string: one of its bytes is the code of the string terminator. -/
def endsString (c : Char) : Bool := (String.utf8EncodeChar c).contains 0x9C

namespace Sequence

/-- What is read after a character that follows an escape character. -/
def afterEscape (c : Char) : Sequence :=
  if c = '[' then control
  else if c = ']' then systemCommand
  else if c = 'P' then deviceStart
  else if c = 'X' ∨ c = '^' ∨ c = '_' then string
  else if codeBetween 0x20 0x2F c then extendedEscape
  else if codeBetween 0x30 0x7E c then outside
  else escape

/-- What is read after a character. The escape character begins a sequence anywhere, and the
characters for cancelling and substitution end any. -/
def next (s : Sequence) (c : Char) : Sequence :=
  if c = '\x1B' then escape
  else if c = '\x18' ∨ c = '\x1A' then outside
  else
    match s with
    | outside => outside
    | escape => afterEscape c
    | extendedEscape => if codeBetween 0x30 0x7E c then outside else extendedEscape
    | control => if codeBetween 0x40 0x7E c then outside else control
    | deviceStart =>
      if codeBetween 0x20 0x2F c then deviceSigns
      else if codeBetween 0x30 0x3F c then deviceParameters
      else if codeBetween 0x40 0x7E c then string
      else deviceStart
    | deviceParameters =>
      if codeBetween 0x20 0x2F c then deviceSigns
      else if codeBetween 0x3C 0x7E c then string
      else deviceParameters
    | deviceSigns => if codeBetween 0x30 0x7E c then string else deviceSigns
    | string => if endsString c then outside else string
    | systemCommand => if c = '\x07' then outside else systemCommand

/-- Whether a sequence lets line breaks and tabs through. -/
def letsBreaksThrough : Sequence → Bool
  | escape | extendedEscape | control => true
  | _ => false

end Sequence

/-- Whether a character breaks a line, ends a page or advances to a tab stop. -/
def isBreak (c : Char) : Bool := c = '\n' || c = '\r' || c = '\t' || c = '\x0C'

/-- Whether a character is shown outside of sequences. -/
def isShown (c : Char) : Bool := isBreak c || (decide (0x20 ≤ c.toNat) && decide (c.toNat ≠ 0x7F))

/-- A text without control characters and sequences, from within a sequence. The flag tells whether
a break has left the sequence open; a character beyond ASCII then closes it. -/
def shownFrom : Sequence → Bool → List Char → List Char
  | _, _, [] => []
  | s, isOpen, c :: rest =>
    if s = .outside ∨ isOpen then
      if isShown c then c :: shownFrom (if c.toNat < 0x80 then s else .outside) isOpen rest
      else shownFrom (s.next c) false rest
    else if s.letsBreaksThrough && isBreak c then c :: shownFrom s true rest
    else shownFrom (s.next c) false rest

/-- A text without control characters and sequences. -/
def withoutControls (text : String) : String :=
  String.ofList (shownFrom .outside false text.toList)

end FullText.Text
