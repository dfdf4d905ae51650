import FullText.Binary64.Numeral
import FullText.SortedMap

/-!
# JSON values

The values that JSON texts stand for. A number is an integer if it is written as one and fits into
64 bits, and a double-precision number otherwise. The members of an object are kept in order;
reading puts them in ascending order of their keys, and of two members with one key keeps the
later one.

## Main definitions

* `Json` : a JSON value.
* `Json.ofNat`, `Json.ofStrings` : values of common shapes.
-/

namespace FullText

/-- A JSON value. -/
inductive Json
  /-- The null value. -/
  | null
  /-- A truth value. -/
  | bool (b : Bool)
  /-- A number written as an integer that fits into 64 bits, with or without sign. -/
  | integer (n : Int)
  /-- Any other number. -/
  | number (x : Binary64)
  /-- A text. -/
  | string (s : String)
  /-- A list of values. -/
  | array (items : List Json)
  /-- Named values. -/
  | object (members : List (String × Json))

namespace Json

instance : Inhabited Json := ⟨null⟩

/-- A natural number as a value. -/
def ofNat (n : Nat) : Json := integer n

/-- A list of texts as a value. -/
def ofStrings (ss : List String) : Json := array (ss.map string)

/-- A sorted map as an object. -/
def ofMap {β : Type} (f : β → Json) (m : SortedMap String β) : Json :=
  object (m.entries.map fun e => (e.1, f e.2))

end Json

end FullText
