/-!
# Binary form of values

Values are stored as bytes. Numbers have a fixed width and come with their least significant byte
first. Texts and lists start with their length, in eight bytes, followed by the UTF-8 bytes of the
text or by the items of the list. The entries of a map are stored as a list of pairs. Nothing marks
the end of a value: a reader knows from what it has read how much there is to come, and leaves the
rest alone.

## Main definitions

* `Bytes` : a list of bytes.
* `Bytes.ofUInt64`, `Bytes.ofString`, `Bytes.ofList`, … : the bytes of a value.
* `Bytes.Reader` : reads a value from the start of a list of bytes.
-/

namespace FullText

/-- A list of bytes. -/
abbrev Bytes := List UInt8

namespace Bytes

/-! ### Writing -/

/-- The `count` least significant bytes of a number, the least significant one first. -/
def ofNat : Nat → Nat → Bytes
  | 0, _ => []
  | count + 1, n => UInt8.ofNat n :: ofNat count (n / 256)

/-- The bytes of a 32-bit number. -/
def ofUInt32 (n : UInt32) : Bytes := ofNat 4 n.toNat

/-- The bytes of a 64-bit number. -/
def ofUInt64 (n : UInt64) : Bytes := ofNat 8 n.toNat

/-- The byte of a truth value. -/
def ofBool (b : Bool) : Bytes := [if b then 1 else 0]

/-- The bytes of a text: the number of its UTF-8 bytes, and these bytes. -/
def ofString (s : String) : Bytes := ofNat 8 s.utf8ByteSize ++ s.toUTF8.toList

/-- The bytes of a list: its length, and the bytes of its items. -/
def ofList {α : Type} (item : α → Bytes) (as : List α) : Bytes :=
  ofNat 8 as.length ++ as.flatMap item

/-- The bytes of a pair with a text in front. -/
def ofEntry {β : Type} (value : β → Bytes) (e : String × β) : Bytes := ofString e.1 ++ value e.2

/-! ### Reading -/

/-- A reader takes a value from the start of a list of bytes and leaves the rest. -/
abbrev Reader (α : Type) := Bytes → Option (α × Bytes)

/-- The number of a list of bytes, the least significant one first. -/
def toNat : Bytes → Nat
  | [] => 0
  | b :: rest => b.toNat + 256 * toNat rest

/-- Takes a given number of bytes. -/
def take (count : Nat) : Reader Bytes := fun bytes =>
  if bytes.length < count then none else some (bytes.splitAt count)

/-- Reads a number of `count` bytes. -/
def readNat (count : Nat) : Reader Nat := fun bytes => do
  let (digits, rest) ← take count bytes
  return (toNat digits, rest)

/-- Reads a 32-bit number. -/
def readUInt32 : Reader UInt32 := fun bytes => do
  let (n, rest) ← readNat 4 bytes
  return (UInt32.ofNat n, rest)

/-- Reads a 64-bit number. -/
def readUInt64 : Reader UInt64 := fun bytes => do
  let (n, rest) ← readNat 8 bytes
  return (UInt64.ofNat n, rest)

/-- Reads a truth value. -/
def readBool : Reader Bool
  | [] => none
  | b :: rest => if b = 0 then some (false, rest) else if b = 1 then some (true, rest) else none

/-- Reads a text. -/
def readString : Reader String := fun bytes => do
  let (length, rest) ← readNat 8 bytes
  let (text, rest) ← take length rest
  let s ← String.fromUTF8? text.toByteArray
  return (s, rest)

/-- Reads a given number of items. -/
def readMany {α : Type} (item : Reader α) : Nat → Reader (List α)
  | 0, bytes => some ([], bytes)
  | count + 1, bytes => do
    let (a, rest) ← item bytes
    let (as, rest) ← readMany item count rest
    return (a :: as, rest)

/-- Reads a list. -/
def readList {α : Type} (item : Reader α) : Reader (List α) := fun bytes => do
  let (length, rest) ← readNat 8 bytes
  readMany item length rest

/-- Reads a pair with a text in front. -/
def readEntry {β : Type} (value : Reader β) : Reader (String × β) := fun bytes => do
  let (key, rest) ← readString bytes
  let (v, rest) ← value rest
  return ((key, v), rest)

end Bytes

end FullText
