import ConventionLint.Analysis
import ConventionLint.Config.Fingerprint
import ConventionLint.Config.Validation
import ConventionLint.Workspace.Loading

/-!
# The linter

A linter is a valid configuration with its rules and markers. It checks the source files that paths
mean, or sources given as texts, as one compilation.
-/
namespace ConventionLint

/-- How files are chosen and loaded for one check. -/
structure CheckOptions where
  maxFiles : Option Nat
  /-- Whether a file that cannot be read or scanned fails the check. -/
  failFast : Bool
  /-- Patterns in addition to the configured ones. -/
  excludePatterns : List String
  /-- Whether ignore files are left aside. -/
  skipsIgnoreFiles : Bool
deriving DecidableEq, Repr

def CheckOptions.standard : CheckOptions := ⟨none, false, [], false⟩

structure Linter where
  config : Config
  rules : RuleSet

namespace Linter

/-- The linter of a configuration whose patterns are written in the syntax that `compile` knows. -/
def ofConfigWith (compile : Glob.Compiler) (c : Config) : Except LintError Linter := do
  let valid ← c.validatedWith compile
  return ⟨valid, ← valid.ruleSet⟩

def ofConfig (c : Config) : Except LintError Linter :=
  ofConfigWith Glob.compile c

/-- The linter of the standard configuration. -/
def standard : Except LintError Linter :=
  ofConfig .standard

def markers (l : Linter) : MarkerSet :=
  l.config.markers.markerSet

/-- The name of the ignore files that count. An empty name is none. -/
def ignoreName (l : Linter) (o : CheckOptions) : Option String :=
  if o.skipsIgnoreFiles then none else l.config.ignoreFile.filter (· ≠ "")

def filterWith (compile : Glob.Compiler) (l : Linter) (o : CheckOptions) :
    Except LintError PathFilter :=
  match PathFilter.ofPatternsWith compile (l.config.patterns ++ o.excludePatterns)
      (l.ignoreName o) with
  | .ok f => .ok f
  | .error (.pattern written fault) => .error (.configuration (.invalidFilter written fault))
  | .error fault => .error fault

def filter (l : Linter) (o : CheckOptions) : Except LintError PathFilter :=
  l.filterWith Glob.compile o

/-- The report on a compilation, which bears the fingerprint of the configuration. -/
def checkCompilation (l : Linter) (c : Compilation) (cancelled : Bool) :
    Except LintError Report := do
  let report ← c.analyze l.rules l.markers cancelled
  return { report with fingerprint := some l.config.fingerprint }

/-- Checks the source files that paths mean. -/
def checkPaths (l : Linter) (tree : FileTree) (paths : List Path) (o : CheckOptions)
    (cancelled : Bool) : Except LintError Report := do
  let f ← l.filter o
  let found ← f.discover tree paths
  let files := o.maxFiles.elim found (found.take ·)
  l.checkCompilation (← Compilation.load tree l.config.markers.root o.failFast files) cancelled

/-- Checks sources given as texts. -/
def checkSourcesWith (compile : Glob.Compiler) (l : Linter) (sources : List Source) :
    Except LintError Report := do
  let _ ← l.filterWith compile .standard
  l.checkCompilation (← Compilation.ofSources l.config.markers.root sources) false

def checkSources (l : Linter) (sources : List Source) : Except LintError Report :=
  l.checkSourcesWith Glob.compile sources

/-- Checks paths and fails when a diagnostic blocks. -/
def gate (l : Linter) (tree : FileTree) (paths : List Path) : Except LintError Report := do
  let report ← l.checkPaths tree paths .standard false
  if report.hasErrors then .error (.blocked report.errorCount) else .ok report

end Linter

end ConventionLint
