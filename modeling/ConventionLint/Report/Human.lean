import ConventionLint.Diagnostic
import ConventionLint.Number.Rounding
import ConventionLint.Report.Basic

/-!
# Reports for people

The diagnostics file by file with their fixes, the rules that failed, and a summary. A terminal is
told to colour a text by a control sequence that turns a style on and another one that resets it.
Where a text resets the style itself, the style is turned on again.
-/
namespace ConventionLint

inductive Style where
  | error
  | warning
  | success
  | dim
  | bold
deriving DecidableEq, Repr

namespace Style

def ofSeverity : Severity → Style
  | .error => .error
  | .warning => .warning

def code : Style → String
  | .error => "31"
  | .warning => "33"
  | .success => "32"
  | .dim => "2"
  | .bold => "1"

def control (code : String) : String :=
  "\x1b[" ++ code ++ "m"

/-- Inserts a text behind every reset. -/
def resumeAfterReset (text : List Char) : List Char → List Char
  | '\x1b' :: '[' :: '0' :: 'm' :: rest =>
    '\x1b' :: '[' :: '0' :: 'm' :: (text ++ resumeAfterReset text rest)
  | c :: rest => c :: resumeAfterReset text rest
  | [] => []

def apply (style : Style) (text : String) : String :=
  let on := control style.code
  on ++ String.ofList (resumeAfterReset on.toList text.toList) ++ control "0"

end Style

end ConventionLint

namespace ConventionLint.Report.Human

def paint (o : ReportOptions) (style : Style) (text : String) : String :=
  if o.useColors then style.apply text else text

/-- A number of things, the noun in its plural except for one. -/
def counted (n : Nat) (noun : String) : String :=
  n.repr ++ " " ++ noun ++ if n = 1 then "" else "s"

def fixLine (o : ReportOptions) (fix : Fix) : String :=
  "    💡 " ++ paint o .success fix.title ++ "\n"

def diagnosticLines (o : ReportOptions) (d : Diagnostic) : String :=
  let position := d.location.line.repr ++ ":" ++ d.location.column.repr
  let severity := paint o (.ofSeverity d.severity) d.severity.text
  "  " ++ paint o .dim position ++ " " ++ d.code ++ " [" ++ severity ++ "] " ++ d.message ++ "\n"
    ++ String.join (if o.showFixes then d.fixes.map (fixLine o) else [])

/-- The files with diagnostics, in order. -/
def files (diagnostics : List Diagnostic) : List Path :=
  Path.sortedSet (diagnostics.map (·.location.file))

def fileSection (o : ReportOptions) (diagnostics : List Diagnostic) (file : Path) : String :=
  "📁 " ++ file.text ++ "\n"
    ++ String.join ((diagnostics.filter (·.location.file.same file)).map (diagnosticLines o))
    ++ "\n"

def violations (o : ReportOptions) (r : Report) (shown : List Diagnostic) : String :=
  if shown.isEmpty then "✅ " ++ paint o .success "No convention violations found" ++ "\n"
  else
    let title := "Convention Violations Found"
    (if r.hasErrors then "❌ " ++ paint o .error title else "⚠️ " ++ paint o .warning title)
      ++ "\n\n" ++ String.join ((files shown).map (fileSection o shown))

def faultLine (f : EvaluationFault) : String :=
  "  " ++ f.code ++ " on '" ++ f.symbol ++ "': " ++ f.message ++ "\n"

def faults (o : ReportOptions) (r : Report) : String :=
  if r.faults.isEmpty then ""
  else
    paint o .warning (r.faults.length.repr ++ " rule evaluation(s) did not complete") ++ "\n"
      ++ String.join (r.faults.map faultLine) ++ "\n"

/-- How many diagnostics there are of each severity that occurs. -/
def findings (o : ReportOptions) (r : Report) : String :=
  if r.errorCount + r.warningCount = 0 then paint o .success "0 violations"
  else
    let errors := if r.errorCount = 0 then [] else [paint o .error (counted r.errorCount "error")]
    let warnings :=
      if r.warningCount = 0 then [] else [paint o .warning (counted r.warningCount "warning")]
    ", ".intercalate (errors ++ warnings)

def summary (o : ReportOptions) (r : Report) : String :=
  "📊 " ++ paint o .bold "Summary:" ++ " " ++ findings o r ++ " in " ++ r.fileCount.repr
    ++ " files, " ++ r.typeCount.repr ++ " types (" ++ (Number.seconds r.milliseconds).fixed 1 ++ "s)\n"

def render (o : ReportOptions) (r : Report) : String :=
  violations o r (o.select r.diagnostics) ++ faults o r ++ summary o r

end ConventionLint.Report.Human
