import ConventionLint.CommandLine.Options
import ConventionLint.Linter
import ConventionLint.Report.Format

/-!
# Commands

What the arguments of the tool ask for. Some options belong to every command and can stand before or
behind its name; of two values for such an option the one behind the name counts.
-/
namespace ConventionLint.CommandLine

structure CheckRequest where
  paths : List Path
  format : OutputFormat
  minSeverity : Option Severity
  maxDiagnostics : Option Nat
  options : CheckOptions
  showFixes : Bool
deriving DecidableEq, Repr

inductive Command where
  | check (request : CheckRequest)
  | validateConfig (file : Option Path)
  | explain (code : String)
  | listRules (enabledOnly : Bool) (category : Option Category)
deriving DecidableEq, Repr

/-- A command with the options of every command. -/
structure Invocation where
  command : Command
  config : Option Path
  noColor : Bool
deriving DecidableEq, Repr

inductive Request where
  | run (invocation : Invocation)
  | showVersion
  | showHelp
deriving DecidableEq, Repr

def format? (name : String) : Option OutputFormat :=
  OutputFormat.all.find? (·.name = name)

/-- The argument that stands for a category. -/
def categoryName : Category → String
  | .naming => "naming"
  | .messaging => "messaging"
  | .rules => "rules"
  | .analyzer => "analyzer"

def category? (name : String) : Option Category :=
  Category.all.find? (categoryName · = name)

/-- A decimal number of at most 64 bits, with or without a plus sign. -/
def count? (written : String) : Option Nat :=
  let digits := match written.toList with
    | '+' :: digits => digits
    | digits => digits
  if digits.isEmpty || !digits.all Char.isDigit then none
  else
    let n := digits.foldl (fun n c => 10 * n + (c.toNat - '0'.toNat)) 0
    if n < UInt64.size then some n else none

def isPathArgument (written : String) : Bool :=
  !written.isEmpty

def helpOption : OptionSpec := ⟨"help", some 'h', .stop⟩

def versionOption : OptionSpec := ⟨"version", some 'V', .stop⟩

/-- The options of every command. -/
def globalOptions : List OptionSpec :=
  [⟨"verbose", some 'v', .flag⟩, ⟨"log-json", none, .flag⟩,
   ⟨"config", some 'c', .value isPathArgument⟩, ⟨"no-color", none, .flag⟩, helpOption]

def checkOptions : List OptionSpec :=
  [⟨"format", some 'f', .value fun s => (format? s).isSome⟩,
   ⟨"severity", some 's', .value fun s => (Severity.ofText? s).isSome⟩,
   ⟨"max-diagnostics", none, .value fun s => (count? s).isSome⟩,
   ⟨"exclude", none, .values fun _ => true⟩, ⟨"no-ignore", none, .flag⟩,
   ⟨"no-parallel", none, .flag⟩, ⟨"fail-fast", none, .flag⟩, ⟨"no-fixes", none, .flag⟩]

def rulesOptions : List OptionSpec :=
  [⟨"enabled-only", none, .flag⟩,
   ⟨"category", none, .value fun s => (category? s).isSome⟩]

def checkCommand (a : Arguments) : Option Command :=
  if a.operands.all isPathArgument then
    some <| .check {
      paths := if a.operands.isEmpty then [⟨"."⟩] else a.operands.map (⟨·⟩)
      format := ((a.value? "format").bind format?).getD .human
      minSeverity := (a.value? "severity").bind Severity.ofText?
      maxDiagnostics := (a.value? "max-diagnostics").bind count?
      options := {
        maxFiles := none
        failFast := a.hasFlag "fail-fast"
        excludePatterns := a.values "exclude"
        skipsIgnoreFiles := a.hasFlag "no-ignore" }
      showFixes := !a.hasFlag "no-fixes" }
  else none

def validateCommand (a : Arguments) : Option Command :=
  match a.operands with
  | [] => some (.validateConfig none)
  | [file] => if isPathArgument file then some (.validateConfig (some ⟨file⟩)) else none
  | _ => none

def explainCommand (a : Arguments) : Option Command :=
  match a.operands with
  | [code] => some (.explain code)
  | _ => none

def rulesCommand (a : Arguments) : Option Command :=
  if a.operands.isEmpty then
    some (.listRules (a.hasFlag "enabled-only") ((a.value? "category").bind category?))
  else none

/-- A command's own options, and what its arguments mean. -/
def command? : String → Option (List OptionSpec × (Arguments → Option Command))
  | "check" => some (checkOptions, checkCommand)
  | "validate-config" => some ([], validateCommand)
  | "explain" => some ([], explainCommand)
  | "rules" => some (rulesOptions, rulesCommand)
  | _ => none

/-- The invocation of a command, whose options count before the outer ones. -/
def invocation (command : Command) (outer inner : Arguments) : Invocation where
  command := command
  config := ((inner.value? "config").or (outer.value? "config")).map (⟨·⟩)
  noColor := inner.hasFlag "no-color" || outer.hasFlag "no-color"

/-- Reads what follows the name of a command. -/
def parseCommand (outer : Arguments) (name : String) (rest : List String) : Option Request := do
  let (own, interpret) ← command? name
  match readArguments (own ++ globalOptions) false .empty rest with
  | .invalid => none
  | .stopped _ => some .showHelp
  | .read inner _ => (interpret inner).map fun command => .run (invocation command outer inner)

/-- Reads what follows `help`: nothing or one command, which can be `help` itself. -/
def parseHelp : List String → Option Request
  | [] | ["help"] => some .showHelp
  | [name] => (command? name).map fun _ => .showHelp
  | _ => none

/-- What arguments ask for, unless they are at fault. -/
def parse (arguments : List String) : Option Request :=
  match readArguments (versionOption :: globalOptions) true .empty arguments with
  | .invalid => none
  | .stopped name => some (if name = versionOption.name then .showVersion else .showHelp)
  | .read outer rest =>
    match outer.operands with
    | ["help"] => parseHelp rest
    | [name] => parseCommand outer name rest
    | _ => none

end ConventionLint.CommandLine
