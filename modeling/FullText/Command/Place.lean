import FullText.Text.Split

/-!
# Places

A path says how to get to a file, part by part: a single point stays where it is, two points go up
to the folder around, and a name goes down. Different paths may lead to one place. A place is given
by the names on the straight way to it, which begins at the root of all folders or a number of
levels above the folder that the program is started in.

## Main definitions

* `Place` : where a file or a folder may stand.
* `Place.walk` : the place to which one part of a path leads.
* `places` : the places on the way of a path.
* `destination` : the place to which a path leads.

## Main results

* `getLast?_places` : the way of a path ends at its destination.
-/

namespace FullText

/-- A place for a file or a folder. -/
structure Place where
  /-- How many levels the way begins above the folder that the program is started in, if it does
  not begin at the root. -/
  levels : Option Nat
  /-- The names on the way, the last one first. -/
  names : List String
  deriving DecidableEq

namespace Place

instance : Ord Place := ⟨compareLex (compareOn Place.levels) (compareOn Place.names)⟩

instance : Std.TransOrd Place :=
  inferInstanceAs (Std.TransCmp (compareLex (compareOn Place.levels) (compareOn Place.names)))

instance : Std.LawfulEqOrd Place where
  eq_of_compare {a b} h := by
    obtain ⟨hl, hn⟩ := Ordering.then_eq_eq.1 (show
      ((compare a.levels b.levels).then (compare a.names b.names)) = .eq from h)
    cases a; cases b
    exact congr (congrArg Place.mk (Std.LawfulEqCmp.eq_of_compare hl))
      (Std.LawfulEqCmp.eq_of_compare hn)

/-- The root of all folders. -/
def root : Place := ⟨none, []⟩

/-- The folder that the program is started in. -/
def start : Place := ⟨some 0, []⟩

/-- The place one level up. Nothing is above the root. -/
def parent : Place → Place
  | ⟨levels, _ :: names⟩ => ⟨levels, names⟩
  | ⟨levels, []⟩ => ⟨levels.map (· + 1), []⟩

/-- The place to which one part of a path leads. -/
def walk (p : Place) (part : List Char) : Place :=
  if part = ['.'] then p
  else if part = ['.', '.'] then p.parent
  else ⟨p.levels, String.ofList part :: p.names⟩

/-- The straight path to a place. -/
def path (p : Place) : String :=
  match p.levels with
  | none => "/" ++ "/".intercalate p.names.reverse
  | some levels => "/".intercalate (List.replicate levels ".." ++ p.names.reverse)

end Place

/-- The places to which the parts of a path lead, one after the other. -/
def placesFrom (p : Place) : List (List Char) → List Place
  | [] => []
  | part :: rest => p.walk part :: placesFrom (p.walk part) rest

/-- The parts of a path. -/
def pathSteps (path : String) : List (List Char) :=
  (Text.splitWhere (fun c => decide (c = '/')) path.toList).filter fun part => !part.isEmpty

/-- The place at which a path begins. -/
def origin (path : String) : Place := if path.toList.head? = some '/' then .root else .start

/-- The places on the way of a path, the first and the last one included. -/
def places (path : String) : List Place := origin path :: placesFrom (origin path) (pathSteps path)

/-- The place to which a path leads. -/
def destination (path : String) : Place := (pathSteps path).foldl Place.walk (origin path)

theorem getLast?_cons_placesFrom (p : Place) (parts : List (List Char)) :
    (p :: placesFrom p parts).getLast? = some (parts.foldl Place.walk p) := by
  induction parts generalizing p with
  | nil => rfl
  | cons part rest ih => rw [placesFrom, List.getLast?_cons_cons, ih, List.foldl_cons]

/-- The last place on the way of a path is the one to which it leads. -/
theorem getLast?_places (path : String) : (places path).getLast? = some (destination path) :=
  getLast?_cons_placesFrom (origin path) (pathSteps path)

/-- Whether a path ends in a slash, so that it can only lead to a folder. -/
def asksForFolder (path : String) : Bool := path.toList.getLast? = some '/'

end FullText
