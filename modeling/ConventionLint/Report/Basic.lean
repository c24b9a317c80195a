import ConventionLint.Diagnostic
import ConventionLint.Time.Instant

/-!
# Reports

The result of an analysis. Once sorted, a report lists its diagnostics by location, code and
message, and its faults by symbol, code and message. A rendering may leave out diagnostics below a
severity, and then all but the first few; summaries count all diagnostics regardless.
-/
namespace ConventionLint

structure Report where
  diagnostics : List Diagnostic
  faults : List EvaluationFault
  fileCount : Nat
  typeCount : Nat
  milliseconds : Nat
  analyzedAt : Instant
  fingerprint : Option String

namespace Report

def empty : Report := ⟨[], [], 0, 0, 0, .epoch, none⟩

def countOf (r : Report) (severity : Severity) : Nat :=
  r.diagnostics.countP (·.severity = severity)

def errorCount (r : Report) : Nat :=
  r.countOf .error

def warningCount (r : Report) : Nat :=
  r.countOf .warning

/-- Whether some diagnostic blocks. -/
def hasErrors (r : Report) : Bool :=
  0 < r.errorCount

def hasDiagnostics (r : Report) : Bool :=
  !r.diagnostics.isEmpty

def withCode (r : Report) (code : String) : List Diagnostic :=
  r.diagnostics.filter (·.code = code)

def withSeverity (r : Report) (severity : Severity) : List Diagnostic :=
  r.diagnostics.filter (·.severity = severity)

def sorted (r : Report) : Report :=
  { r with
    diagnostics := r.diagnostics.mergeSort Diagnostic.le
    faults := r.faults.mergeSort EvaluationFault.le }

end Report

structure ReportOptions where
  /-- Colours in the text for people. -/
  useColors : Bool
  /-- Fixes in the text for people. -/
  showFixes : Bool
  maxDiagnostics : Option Nat
  minSeverity : Option Severity
deriving DecidableEq, Repr

namespace ReportOptions

def standard : ReportOptions := ⟨true, true, none, none⟩

/-- The diagnostics that are shown, in their order. -/
def select (o : ReportOptions) (diagnostics : List Diagnostic) : List Diagnostic :=
  let severe := diagnostics.filter fun d => o.minSeverity.all d.severity.atLeast
  o.maxDiagnostics.elim severe (severe.take ·)

end ReportOptions

namespace Tool

def name : String := "stacks-lint"

def version : String := "0.1.0"

end Tool

end ConventionLint
