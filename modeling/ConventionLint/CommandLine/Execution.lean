import ConventionLint.CommandLine.Command
import ConventionLint.Config.Yaml

/-!
# Running commands

What a command prints and the exit code it ends with. One means that something was found or that a
name or configuration is no good; two means that the command could not be carried out.
-/
namespace ConventionLint.CommandLine

structure Result where
  output : String
  errors : String
  exit : Nat
deriving DecidableEq, Repr

/-- What a command knows of the world besides the files. -/
structure Surroundings where
  tree : FileTree
  now : Instant
  /-- Whether the output may be coloured. -/
  isTerminal : Bool

namespace Result

def success (output : String) : Result := ⟨output, "", 0⟩

/-- The arguments are at fault. -/
def invalidArguments : Result := ⟨"", "", 2⟩

/-- An error with its cause, if it has one, behind what was being done. -/
def failure (doing : String) (error : LintError) : Result :=
  let causes := doing :: error.message :: error.cause?.toList
  ⟨"", "Error: " ++ ": ".intercalate causes ++ "\n", 2⟩

end Result

def lines (l : List String) : String :=
  String.join (l.map (· ++ "\n"))

/-- The configuration file that counts: the given one, or that of the current directory. -/
def configFile (s : Surroundings) (i : Invocation) : Option Path :=
  i.config.or (Config.discover s.tree ⟨"."⟩)

/-- Goes on with the configuration that counts. -/
def withConfig (s : Surroundings) (i : Invocation) (run : Config → Result) : Result :=
  match configFile s i with
  | none => run .standard
  | some file =>
    match Config.load s.tree file with
    | .ok c => run c
    | .error e => .failure ("Failed to load configuration from " ++ file.text) e

def runCheck (s : Surroundings) (i : Invocation) (request : CheckRequest) : Result :=
  withConfig s i fun c =>
    match Linter.ofConfig c with
    | .error e => .failure "Invalid configuration" e
    | .ok linter =>
      match linter.checkPaths s.tree request.paths request.options false with
      | .error e => .failure "Analysis failed" e
      | .ok report =>
        let options : ReportOptions :=
          { useColors := s.isTerminal && !i.noColor
            showFixes := request.showFixes
            maxDiagnostics := request.maxDiagnostics
            minSeverity := request.minSeverity }
        let text := request.format.render options { report with analyzedAt := s.now }
        ⟨text ++ "\n", "", if report.hasErrors then 1 else 0⟩

def validConfigLines (c : Config) (rules : RuleSet) : List String :=
  ["✅ Configuration is valid",
   "📊 Configuration summary:",
   "  Markers: " ++ if c.markers.strict then "strict identity" else "by name or identity",
   "  Rules: " ++ rules.rules.length.repr ++ " enabled, " ++ c.rules.length.repr ++ " overridden",
   "  Path patterns: " ++ c.patterns.length.repr,
   "  Fingerprint: " ++ c.fingerprint]

/-- Without any file it is the first of the conventional ones that is missing. -/
def runValidateConfig (s : Surroundings) (i : Invocation) (file : Option Path) : Result :=
  let file := (file.or (configFile s i)).getD ⟨Config.fileNames.headD ""⟩
  let title := "Validating configuration: " ++ file.text
  match (Config.load s.tree file).bind fun c => c.ruleSet.map (c, ·) with
  | .ok (c, rules) => .success (lines (title :: validConfigLines c rules))
  | .error e =>
    ⟨lines [title], "❌ Configuration validation failed: " ++ e.message ++ "\n", 1⟩

def descriptorLines (d : Descriptor) : List String :=
  ["📖 " ++ d.code ++ ": " ++ d.title,
   "📂 Category: " ++ d.category.text,
   "⚠️  Default severity: " ++ d.severity.text,
   "",
   "📝 Message:",
   "   " ++ d.template,
   "",
   "🔎 Description:",
   "   " ++ d.description]

def runExplain (code : String) : Result :=
  match Descriptor.find? code with
  | some d => .success (lines (descriptorLines d))
  | none =>
    let known := Descriptor.catalog.map fun d => "  " ++ d.code ++ " - " ++ d.title
    ⟨lines ("" :: "Available codes:" :: known),
      "❌ Unknown diagnostic code " ++ quoted code ++ "\n", 1⟩

/-- A line on a descriptor, given the descriptor as it is in effect, if it is. -/
def ruleLine (d : Descriptor) (active : Option Descriptor) : String :=
  "  " ++ (if active.isSome then "✅" else "❌") ++ " " ++ d.code ++ " ["
    ++ (active.getD d).severity.text ++ "] " ++ d.category.text ++ " - " ++ d.title

def runListRules (s : Surroundings) (i : Invocation) (enabledOnly : Bool)
    (category : Option Category) : Result :=
  withConfig s i fun c =>
    match c.ruleSet with
    | .error e => ⟨"", "Error: " ++ e.message ++ "\n", 2⟩
    | .ok rules =>
      let shown := Descriptor.catalog.filterMap fun d =>
        let active := rules.descriptors.find? (·.code = d.code)
        if category.all (· = d.category) && (active.isSome || !enabledOnly) then
          some (ruleLine d active)
        else none
      .success (lines ("📋 Available Rules" :: "" :: shown))

def Invocation.run (s : Surroundings) (i : Invocation) : Result :=
  match i.command with
  | .check request => runCheck s i request
  | .validateConfig file => runValidateConfig s i file
  | .explain code => runExplain code
  | .listRules enabledOnly category => runListRules s i enabledOnly category

/-- Carries out what arguments ask for. -/
def run (s : Surroundings) (arguments : List String) : Result :=
  match parse arguments with
  | none => .invalidArguments
  | some .showVersion => .success (Tool.name ++ " " ++ Tool.version ++ "\n")
  | some .showHelp => .success ""
  | some (.run i) => i.run s

end ConventionLint.CommandLine
