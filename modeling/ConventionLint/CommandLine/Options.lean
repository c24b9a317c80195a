import ConventionLint.Text.Split

/-!
# Options

The arguments of a command are options and operands in any order. An option is named by a word
behind two dashes or by a letter behind one; letters can stand together, and a value follows as an
argument of its own, behind an equals sign or directly behind its letter. Behind a bare `--` there
are operands only.
-/
namespace ConventionLint.CommandLine

/-- What an option does. -/
inductive Effect where
  | flag
  /-- Takes a value for which the test holds. -/
  | value (accepts : String → Bool)
  /-- Takes such a value every time it occurs. -/
  | values (accepts : String → Bool)
  /-- Ends the reading; nothing behind it counts. -/
  | stop

structure OptionSpec where
  name : String
  letter : Option Char
  effect : Effect

/-- The arguments of a command as far as they were read. -/
structure Arguments where
  /-- The options with their values, empty for flags. -/
  options : List (String × String)
  operands : List String
deriving DecidableEq, Repr

namespace Arguments

def empty : Arguments := ⟨[], []⟩

def hasFlag (a : Arguments) (name : String) : Bool :=
  a.options.any (·.1 = name)

def value? (a : Arguments) (name : String) : Option String :=
  a.options.lookup name

def values (a : Arguments) (name : String) : List String :=
  (a.options.filter (·.1 = name)).map (·.2)

def addOperand (a : Arguments) (operand : String) : Arguments :=
  { a with operands := a.operands ++ [operand] }

/-- Adds an option, which occurs once unless it takes values. -/
def add (a : Arguments) (spec : OptionSpec) (value : String) : Option Arguments :=
  let repeats := match spec.effect with
    | .values _ => true
    | _ => false
  if repeats || !a.hasFlag spec.name then
    some { a with options := a.options ++ [(spec.name, value)] }
  else none

end Arguments

/-- How reading arguments ends. -/
inductive Outcome where
  | invalid
  /-- An option with the effect of a stop was met. -/
  | stopped (name : String)
  /-- The arguments, and those behind the first operand if it ends the reading. -/
  | read (a : Arguments) (rest : List String)

/-- An argument that cannot be taken for an option. -/
def isOperand (argument : String) : Bool :=
  argument.toList.head? ≠ some '-' || argument = "-"

/-- What an option needs next. -/
inductive Step where
  | invalid
  | stopped (name : String)
  | done (a : Arguments)
  /-- The next argument is the value of the option. -/
  | wants (spec : OptionSpec) (accepts : String → Bool) (a : Arguments)

def Step.ofAdded : Option Arguments → Step
  | some a => .done a
  | none => .invalid

def takeValue (spec : OptionSpec) (accepts : String → Bool) (value : String) (a : Arguments) :
    Step :=
  if accepts value then .ofAdded (a.add spec value) else .invalid

/-- Reads an option named by a word, and the value behind its equals sign, if there is one. -/
def readWord (specs : List OptionSpec) (word : String) (a : Arguments) : Step :=
  let (name, attached) := match Text.cutFirst '=' word.toList with
    | some (name, value) => (String.ofList name, some (String.ofList value))
    | none => (word, none)
  match specs.find? (·.name = name) with
  | none => .invalid
  | some spec =>
    match spec.effect, attached with
    | .flag, none => .ofAdded (a.add spec "")
    | .stop, none => .stopped spec.name
    | .value accepts, some value | .values accepts, some value => takeValue spec accepts value a
    | .value accepts, none | .values accepts, none => .wants spec accepts a
    | _, some _ => .invalid

/-- Reads options named by letters. -/
def readLetters (specs : List OptionSpec) (a : Arguments) : List Char → Step
  | [] => .done a
  | c :: rest =>
    match specs.find? (·.letter = some c) with
    | none => .invalid
    | some spec =>
      match spec.effect with
      | .flag =>
        match a.add spec "" with
        | some a => readLetters specs a rest
        | none => .invalid
      | .stop => .stopped spec.name
      | .value accepts | .values accepts =>
        match rest with
        | [] => .wants spec accepts a
        | '=' :: value => takeValue spec accepts (String.ofList value) a
        | value => takeValue spec accepts (String.ofList value) a

def readOption (specs : List OptionSpec) (argument : String) (a : Arguments) : Step :=
  match argument.toList with
  | '-' :: '-' :: word => readWord specs (String.ofList word) a
  | '-' :: letters => readLetters specs a letters
  | _ => .invalid

/-- Reads arguments. With `single` the first operand ends the reading, and there has to be none
behind a bare `--`. -/
def readArguments (specs : List OptionSpec) (single : Bool) (a : Arguments) :
    List String → Outcome
  | [] => .read a []
  | argument :: rest =>
    if isOperand argument then
      if single then .read (a.addOperand argument) rest
      else readArguments specs single (a.addOperand argument) rest
    else if argument = "--" then
      if single then .invalid else .read { a with operands := a.operands ++ rest } []
    else
      match readOption specs argument a with
      | .invalid => .invalid
      | .stopped name => .stopped name
      | .done a => readArguments specs single a rest
      | .wants spec accepts a =>
        match rest with
        | [] => .invalid
        | value :: rest =>
          if !isOperand value then .invalid
          else
            match takeValue spec accepts value a with
            | .done a => readArguments specs single a rest
            | _ => .invalid

end ConventionLint.CommandLine
