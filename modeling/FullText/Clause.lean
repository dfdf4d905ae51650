import FullText.Config
import FullText.Glob

/-!
# Clauses

A query is a list of clauses. A clause asks for a term in one field or in all of them; the term is
exact, or a wildcard pattern, or comes with an edit distance. A boost weighs the clause against the
others, and a required clause drops the documents that it does not match.

A stored clause tells where the stars of its term are, and it is taken at its word.

## Main definitions

* `Clause` : a clause.
* `Clause.fault?`, `Clause.validate` : the check against a configuration.
* `Clause.display` : the clause in the notation of queries.
-/

namespace FullText

/-- Whether documents may miss a clause. -/
inductive Presence
  /-- A document that misses the clause may be found by another one. -/
  | optional
  /-- A document that misses the clause is not found. -/
  | required
  deriving DecidableEq

/-- The name of a presence in stored clauses. -/
def Presence.name : Presence → String
  | optional => "Optional"
  | required => "Required"

/-- The presence with a name. -/
def Presence.ofName? (name : String) : Option Presence :=
  [optional, required].find? fun p => p.name = name

/-- A clause of a query. -/
structure Clause where
  /-- The term. -/
  term : String
  /-- The field that the term is looked up in; all fields if there is none. -/
  field : Option String
  /-- Where the stars of the term are. The term is a pattern unless there are none. -/
  stars : StarPlacement
  /-- The greatest edit distance of matches. -/
  distance : Option UInt32
  /-- The factor for the contributions of the clause to scores. -/
  boost : Binary64
  /-- Whether documents may miss the clause. -/
  presence : Presence
  deriving DecidableEq

namespace Clause

/-- The clause that asks for a term in all fields. -/
def ofTerm (term : String) : Clause :=
  ⟨term, none, .classify term.toList, none, .one, .optional⟩

/-- The clause with another term. -/
def withTerm (c : Clause) (term : String) : Clause :=
  { c with term, stars := .classify term.toList }

/-- Whether a clause is required. -/
def isRequired (c : Clause) : Bool := c.presence = .required

/-- Whether the term of a clause is a pattern. -/
def isPattern (c : Clause) : Bool := c.stars ≠ .none

/-! ### Validity -/

/-- The first thing wrong with a clause. -/
def fault? (config : Config) (c : Clause) : Option QueryFault :=
  if c.term.toList.all isStar then some .emptyTerm
  else match c.field.bind fun name => if (config.field? name).isNone then some name else none with
    | some name => some (.unknownField name)
    | none =>
      if !c.boost.isPositiveFinite then some (.boostOutOfRange c.boost)
      else if c.isPattern && c.distance.isSome then some .distanceOnPattern
      else none

/-! ### Notation -/

/-- A clause in the notation of queries. -/
def display (c : Clause) : String :=
  (if c.isRequired then "+" else "") ++
  (match c.field with
    | some name => name ++ ":"
    | none => "") ++
  c.term ++
  (match c.distance with
    | some d => "~" ++ writeNat d.toNat
    | none => "") ++
  (if c.boost.same .one then "" else "^" ++ c.boost.write .plain)

/-- Accepts the clauses that can be looked up. -/
def validate (config : Config) (c : Clause) : Except Error Unit :=
  match c.fault? config with
  | some fault => .error (.query fault c.display)
  | none => .ok ()

/-! ### JSON form -/

/-- The JSON form of a clause. -/
def toJson (c : Clause) : Json :=
  .object [
    ("term", .string c.term),
    ("field", c.field.elim .null .string),
    ("wildcard", .string c.stars.name),
    ("edit_distance", c.distance.elim .null fun d => .ofNat d.toNat),
    ("boost", .number c.boost),
    ("presence", .string c.presence.name)]

open Json.Raw (required? optional? record? string? binary64? uint32? choice?)

/-- Reads the JSON form of a clause. -/
def ofJson? (r : Json.Raw) : Option Clause := do
  match ← record? ["term", "field", "wildcard", "edit_distance", "boost", "presence"] r with
  | [term, field, stars, distance, boost, presence] =>
    return {
      term := ← required? string? term
      field := ← optional? string? field
      stars := ← (← required? choice? stars) |> StarPlacement.ofName?
      distance := ← optional? uint32? distance
      boost := ← required? binary64? boost
      presence := ← (← required? choice? presence) |> Presence.ofName? }
  | _ => none

end Clause

end FullText
