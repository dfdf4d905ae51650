/-!
# Reading a command line

A command line is a list of words. Words that start with a hyphen name switches, by a long name
after two hyphens or by letters after one; other words are arguments, told apart by their order. A
switch may take a value: after an equals sign, after its letter, or as the next word, which must
not start with a hyphen. Two hyphens on their own end the switches.

A word that takes no part in a switch may name a command. What follows it belongs to the command,
which has switches and arguments of its own.

The value of a switch or an argument is looked at when the next one begins, so a fault in a later
word can be reported before a fault in the value of an earlier one.

## Main definitions

* `Usage.Fault` : what is wrong with a command line, and requests for help.
* `Usage.Grammar` : the switches, arguments and commands that are known.
* `Usage.Given` : what was given.
* `Usage.read` : reads words as far as a command.
-/

namespace FullText.Usage

/-- Why a command line is not executed. -/
inductive Fault
  /-- A word in the place of a command is none. -/
  | invalidCommand
  /-- There is no command. -/
  | missingCommand
  /-- There are no words at all. -/
  | nothingGiven
  /-- A switch or argument is not known. -/
  | unknownArgument
  /-- A required switch or argument is missing. -/
  | missingArgument
  /-- A switch is repeated that may not be. -/
  | repeatedSwitch
  /-- A switch that takes no value has one. -/
  | needlessValue
  /-- A value is missing, or is none of the possible values. -/
  | invalidValue
  /-- A value is refused. -/
  | refusedValue
  /-- Help is asked for. -/
  | help
  /-- The version is asked for. -/
  | version
  deriving DecidableEq

/-- The names of the kinds of faults. -/
def Fault.name : Fault → String
  | invalidCommand => "InvalidSubcommand"
  | missingCommand => "MissingSubcommand"
  | nothingGiven => "DisplayHelpOnMissingArgumentOrSubcommand"
  | unknownArgument => "UnknownArgument"
  | missingArgument => "MissingRequiredArgument"
  | repeatedSwitch => "ArgumentConflict"
  | needlessValue => "TooManyValues"
  | invalidValue => "InvalidValue"
  | refusedValue => "ValueValidation"
  | help => "DisplayHelp"
  | version => "DisplayVersion"

/-! ### Grammars -/

/-- What a switch does. -/
inductive Effect
  /-- It is on or off, and may be given once. -/
  | flag
  /-- It is counted. -/
  | counter
  /-- It takes a value, and may be given once. -/
  | value
  /-- It takes a value each time it is given. -/
  | values
  /-- It ends the reading. -/
  | stop (fault : Fault)
  deriving DecidableEq

/-- A switch. -/
structure Switch where
  /-- The long name, which also names the switch. -/
  name : String
  /-- The letter, if there is one. -/
  letter : Option Char
  /-- What the switch does. -/
  effect : Effect
  /-- Why a value of the switch is refused, if it is. -/
  refusal : String → Option Fault

/-- Whether a switch takes a value. -/
def Switch.takesValue (s : Switch) : Bool := s.effect = .value || s.effect = .values

/-- An argument that is known by its place. -/
structure Positional where
  /-- The name. -/
  name : String
  /-- Why a value of the argument is refused, if it is. -/
  refusal : String → Option Fault

/-- The switches, arguments and commands that are known. -/
structure Grammar where
  /-- The switches. -/
  switches : List Switch
  /-- The arguments, in order. -/
  positionals : List Positional
  /-- The commands. -/
  commands : List String

/-! ### What was given -/

/-- The values of switches and arguments by name, in the order in which they were accepted. A flag
and a counter have one empty value for each time they were given. -/
abbrev Given := List (String × String)

namespace Given

/-- The values of a switch or argument. -/
def valuesOf (g : Given) (name : String) : List String :=
  g.filterMap fun e => if e.1 = name then some e.2 else none

/-- Whether a switch or argument was given. -/
def has (g : Given) (name : String) : Bool := g.any fun e => e.1 = name

/-- The last value of a switch or argument. -/
def last? (g : Given) (name : String) : Option String := (g.valuesOf name).getLast?

/-- How often a switch was given. -/
def count (g : Given) (name : String) : Nat := (g.valuesOf name).length

end Given

/-- A switch or argument whose value has not been looked at. -/
structure Pending where
  /-- The name. -/
  name : String
  /-- Whether there may be no other value. -/
  single : Bool
  /-- Why a value is refused, if it is. -/
  refusal : String → Option Fault
  /-- The value, unless it is still to come. -/
  value : Option String

/-- What has been read. -/
structure State where
  /-- What was given and accepted. -/
  given : Given
  /-- What was given and not yet accepted. -/
  pending : Option Pending
  /-- The number of arguments known by their place. -/
  placed : Nat
  /-- Whether there are no more switches. -/
  ended : Bool

namespace State

/-- Nothing read. -/
def start : State := ⟨[], none, 0, false⟩

/-- Whether the next word is the value of a switch. -/
def awaitsValue (s : State) : Bool := s.pending.any fun p => p.value.isNone

/-- Accepts a value. -/
def accept (s : State) (p : Pending) : Except Fault State :=
  match p.value with
  | none => .error .invalidValue
  | some v =>
    if p.single && s.given.has p.name then .error .repeatedSwitch
    else match p.refusal v with
      | some fault => .error fault
      | none => .ok { s with given := s.given ++ [(p.name, v)], pending := none }

/-- Accepts what is pending. -/
def settle (s : State) : Except Fault State :=
  match s.pending with
  | none => .ok s
  | some p => s.accept p

/-- Takes note of a switch with a value that is attached or still to come. -/
def takeValue (s : State) (switch : Switch) (attached : Option String) : Except Fault State := do
  let s ← s.settle
  let p : Pending := ⟨switch.name, switch.effect = .value, switch.refusal, attached⟩
  match attached with
  | some _ => s.accept p
  | none => return { s with pending := some p }

/-- Takes note of a switch without a value. -/
def takeSwitch (s : State) (switch : Switch) : Except Fault State := do
  let s ← s.settle
  match switch.effect with
  | .stop fault => .error fault
  | .counter => return { s with given := s.given ++ [(switch.name, "")] }
  | _ =>
    if s.given.has switch.name then .error .repeatedSwitch
    else return { s with given := s.given ++ [(switch.name, "")] }

/-- Takes note of the value that a switch was waiting for. -/
def fill (s : State) (word : String) : State :=
  { s with pending := s.pending.map fun p => { p with value := some word } }

end State

/-! ### Reading -/

/-- Splits a word at its first equals sign. -/
def splitEquals : List Char → List Char × Option (List Char)
  | [] => ([], none)
  | c :: rest =>
    if c = '=' then ([], some rest)
    else
      let (name, value) := splitEquals rest
      (c :: name, value)

/-- Reads a word that starts with two hyphens, without these. -/
def readLong (g : Grammar) (s : State) (word : List Char) : Except Fault State :=
  let (name, attached) := splitEquals word
  match g.switches.find? fun switch => switch.name = String.ofList name with
  | none => .error .unknownArgument
  | some switch =>
    if switch.takesValue then s.takeValue switch (attached.map String.ofList)
    else if attached.isSome then .error .needlessValue
    else s.takeSwitch switch

/-- Reads the letters of a word that starts with one hyphen. What follows the letter of a switch
that takes a value is the value, less an equals sign. -/
def readLetters (g : Grammar) (s : State) : List Char → Except Fault State
  | [] => .ok s
  | c :: rest =>
    match g.switches.find? fun switch => switch.letter = some c with
    | none => .error .unknownArgument
    | some switch =>
      if switch.takesValue then
        s.takeValue switch (match rest with
          | [] => none
          | '=' :: value => some (String.ofList value)
          | value => some (String.ofList value))
      else do
        let s ← s.takeSwitch switch
        readLetters g s rest

/-- Reads a word that is an argument by its place. -/
def readPlaced (g : Grammar) (s : State) (word : String) : Except Fault State :=
  match g.positionals[s.placed]? with
  | some p => do
    let s ← s.settle
    return { s with pending := some ⟨p.name, false, p.refusal, some word⟩, placed := s.placed + 1 }
  | none =>
    if g.commands.isEmpty || (s.ended && g.commands.contains word) then .error .unknownArgument
    else .error .invalidCommand

/-- Reads words as far as a command, and leaves the command with the words after it. -/
def read (g : Grammar) (s : State) :
    List String → Except Fault (State × Option (String × List String))
  | [] => .ok (s, none)
  | word :: rest =>
    if s.ended then do
      let s ← readPlaced g s word
      read g s rest
    else if !s.awaitsValue && g.commands.contains word then .ok (s, some (word, rest))
    else match word.toList with
      | ['-', '-'] => read g { s with ended := true } rest
      | '-' :: '-' :: long => do
        let s ← readLong g s long
        read g s rest
      | '-' :: letter :: letters => do
        let s ← readLetters g s (letter :: letters)
        read g s rest
      | _ =>
        if s.awaitsValue then read g (s.fill word) rest
        else do
          let s ← readPlaced g s word
          read g s rest

end FullText.Usage
