import FullText.Json.Raw

/-!
# The meaning of a JSON text

The second stage of reading: strings get their characters, numbers their values. Two code units
make up one character beyond the basic plane, and a unit of such a pair has no meaning on its own.
A number must not be beyond the range of double precision.

A whole text may be read as a `Json` value; then containers are nested at most 127 deep. Records of
known shape are read field by field instead. A record is written as an object, whose unknown
members are ignored and whose known members must not be repeated, or as an array of all its fields
in order.

## Main definitions

* `Json.parse?` : reads a text as a value.
* `Json.Raw.string?`, `Json.Raw.natural?`, `Json.Raw.binary64?`, … : read a part of known type.
* `Json.Raw.record?` : takes the fields of a record.
* `Json.Raw.map?` : reads an object with arbitrary keys as a sorted map.
-/

namespace FullText.Json

/-! ### Strings and numbers -/

/-- Whether a code unit is the first of a pair. -/
def isLeadUnit (code : Nat) : Bool := decide (0xD800 ≤ code) && decide (code < 0xDC00)

/-- Whether a code unit is the second of a pair. -/
def isTrailUnit (code : Nat) : Bool := decide (0xDC00 ≤ code) && decide (code < 0xE000)

/-- The characters of a string. Code units of pairs must come in pairs. -/
def Piece.chars? : List Piece → Option (List Char)
  | [] => some []
  | .char c :: rest => (chars? rest).map (c :: ·)
  | .unit lead :: .unit trail :: rest =>
    if isLeadUnit lead then
      if isTrailUnit trail then
        (chars? rest).map (Char.ofNat (0x10000 + (lead - 0xD800) * 0x400 + (trail - 0xDC00)) :: ·)
      else none
    else if isTrailUnit lead then none
    else (chars? (.unit trail :: rest)).map (Char.ofNat lead :: ·)
  | .unit code :: rest =>
    if isLeadUnit code || isTrailUnit code then none
    else (chars? rest).map (Char.ofNat code :: ·)

namespace NumberToken

/-- The greatest number of digits that are looked at. No midpoint between two neighbouring
double-precision numbers has more digits than these. -/
def digitLimit : Nat := 768

/-- The number in decimal notation, with the digits as they are written. -/
def plainNumeral (t : NumberToken) : Numeral :=
  let fraction := t.fraction.getD []
  ⟨t.negative, t.whole ++ fraction, t.exponent.getD 0 - fraction.length⟩

/-- The number in decimal notation, with zeros left out at its start and at the end of its
fraction, and with a single 1 in place of the digits beyond the limit. -/
def abridgedNumeral (t : NumberToken) : Numeral :=
  let isZero : Char → Bool := fun c => decide (c = '0')
  let fraction := ((t.fraction.getD []).reverse.dropWhile isZero).reverse
  let digits := (t.whole ++ fraction).dropWhile isZero
  let exponent := t.exponent.getD 0 - fraction.length
  if digits.length ≤ digitLimit then ⟨t.negative, digits, exponent⟩
  else
    ⟨t.negative, digits.take digitLimit ++ ['1'],
      exponent + ((digits.length - digitLimit : Nat) : Int) - 1⟩

/-- The number in decimal notation. Of the digits beyond the limit it is only said that something
follows, even if they are zeros before the point. -/
def toNumeral (t : NumberToken) : Numeral :=
  if t.plainNumeral.digits.length ≤ digitLimit then t.plainNumeral else t.abridgedNumeral

/-- The integer that a token without fraction and exponent denotes. Negative zero is no integer. -/
def integer? (t : NumberToken) : Option Int :=
  match t.fraction, t.exponent with
  | none, none =>
    let n := Numeral.digitsValue t.whole
    if t.negative then if n = 0 then none else some (-n) else some n
  | _, _ => none

/-- The double-precision number nearest to the token, unless that is infinite. -/
def binary64? (t : NumberToken) : Option Binary64 :=
  let x := t.toNumeral.toBinary64
  if x.isFinite then some x else none

/-- The value of a number: an integer if it is written as one and fits into 64 bits with or without
a sign, and else a double-precision number. -/
def value? (t : NumberToken) : Option Json :=
  match t.integer? with
  | some n =>
    if -(Int64.size / 2 : Nat) ≤ n ∧ n < UInt64.size then some (.integer n)
    else t.binary64?.map .number
  | none => t.binary64?.map .number

end NumberToken

/-! ### Values of any shape -/

/-- The greatest number of containers around a value. -/
def nestingLimit : Nat := 127

mutual

/-- The value of a text taken apart. At most `depth` containers may be nested. -/
def Raw.value? (depth : Nat) : Raw → Option Json
  | .null => some .null
  | .bool b => some (.bool b)
  | .number t => t.value?
  | .string pieces => (Piece.chars? pieces).map fun cs => .string (String.ofList cs)
  | .array items =>
    match depth with
    | 0 => none
    | depth + 1 => (Raw.values? depth items).map .array
  | .object members =>
    match depth with
    | 0 => none
    | depth + 1 =>
      (Raw.memberValues? depth members).map fun ms => .object (SortedMap.ofList ms).entries

/-- The values of the items of an array. -/
def Raw.values? (depth : Nat) : List Raw → Option (List Json)
  | [] => some []
  | r :: rest => do
    let v ← Raw.value? depth r
    let vs ← Raw.values? depth rest
    return v :: vs

/-- The members of an object, in the order of the text. -/
def Raw.memberValues? (depth : Nat) : List (List Piece × Raw) → Option (List (String × Json))
  | [] => some []
  | (key, r) :: rest => do
    let cs ← Piece.chars? key
    let v ← Raw.value? depth r
    let vs ← Raw.memberValues? depth rest
    return (String.ofList cs, v) :: vs

end

/-- Reads a text as a value. -/
def parse? (text : String) : Option Json := (Raw.parse? text).bind (Raw.value? nestingLimit)

/-! ### Parts of known type -/

namespace Raw

/-- Reads a string. -/
def string? : Raw → Option String
  | .string pieces => (Piece.chars? pieces).map String.ofList
  | _ => none

/-- Reads a truth value. -/
def bool? : Raw → Option Bool
  | .bool b => some b
  | _ => none

/-- Reads a number of any kind. -/
def binary64? : Raw → Option Binary64
  | .number t => t.binary64?
  | _ => none

/-- Reads a natural number less than `bound`. -/
def natural? (bound : Nat) : Raw → Option Nat
  | .number t =>
    match t.integer? with
    | some n => if 0 ≤ n ∧ n < bound then some n.toNat else none
    | none => none
  | _ => none

/-- Reads a 32-bit number without sign. -/
def uint32? (r : Raw) : Option UInt32 := (r.natural? UInt32.size).map UInt32.ofNat

/-- Reads a 64-bit number without sign. -/
def uint64? (r : Raw) : Option UInt64 := (r.natural? UInt64.size).map UInt64.ofNat

/-- Reads an array whose items are read by `item`. -/
def list? {α : Type} (item : Raw → Option α) : Raw → Option (List α)
  | .array items => items.mapM item
  | _ => none

/-- Reads an object with arbitrary keys whose values are read by `value`. Of two members with one
key the later one counts. -/
def map? {β : Type} (value : Raw → Option β) : Raw → Option (SortedMap String β)
  | .object members =>
    (members.mapM fun (key, r) => do
      let cs ← Piece.chars? key
      let v ← value r
      return (String.ofList cs, v)).map SortedMap.ofList
  | _ => none

/-- Reads a value that may be null. -/
def nullable? {α : Type} (value : Raw → Option α) : Raw → Option (Option α)
  | .null => some none
  | r => (value r).map some

/-- Reads the name of a choice: a string, or an object with the name as its only key and the value
null. -/
def choice? : Raw → Option String
  | .string pieces => string? (.string pieces)
  | .object [(key, .null)] => string? (.string key)
  | _ => none

/-! ### Records -/

/-- The members of an object that a record knows, as their places in the record. The keys must be
well formed, and no known key may be repeated. -/
def knownMembers? (names : List String) :
    List (List Piece × Raw) → Option (List (Nat × Raw))
  | [] => some []
  | (key, r) :: rest => do
    let cs ← Piece.chars? key
    let known ← knownMembers? names rest
    match names.findIdx? (· = String.ofList cs) with
    | none => return known
    | some i => if known.any (·.1 = i) then none else return (i, r) :: known

/-- Takes the fields of a record, each of which may be missing. A record is an object, or an array
of all fields. -/
def record? (names : List String) : Raw → Option (List (Option Raw))
  | .array items => if items.length = names.length then some (items.map some) else none
  | .object members => do
    let known ← knownMembers? names members
    return (List.range names.length).map fun i => known.findSome? fun e =>
      if e.1 = i then some e.2 else none
  | _ => none

/-- Reads a field that must be present. -/
def required? {α : Type} (value : Raw → Option α) (r : Option Raw) : Option α := r.bind value

/-- Reads a field that may be missing or null. -/
def optional? {α : Type} (value : Raw → Option α) : Option Raw → Option (Option α)
  | none => some none
  | some r => nullable? value r

end Raw

end FullText.Json
