import ConventionLint.Number.Rounding
import ConventionLint.Report.Basic

/-!
# Reports for build servers

JUnit's form is a test suite with one case for each diagnostic, which fails when the diagnostic
blocks. The five characters that mean something in markup are written as entities. As workflow
commands, a report is one line for each diagnostic, by which a GitHub workflow annotates the source.
-/
namespace ConventionLint.Xml

/-- Puts a text in place of a character. -/
def substitute (c : Char) (text : String) (s : List Char) : List Char :=
  s.flatMap fun d => if d = c then text.toList else [d]

/-- The ampersand comes first, since the other entities bring one along. -/
def escapeList (s : List Char) : List Char :=
  substitute '\'' "&#39;" <| substitute '"' "&quot;" <| substitute '>' "&gt;" <|
    substitute '<' "&lt;" <| substitute '&' "&amp;" s

def escape (s : String) : String :=
  String.ofList (escapeList s.toList)

end ConventionLint.Xml

namespace ConventionLint.Report.Junit

def withAttribute (name value : String) : String :=
  " " ++ name ++ "=\"" ++ value ++ "\""

def failure (d : Diagnostic) : String :=
  "    <failure" ++ withAttribute "message" (Xml.escape d.message) ++ ">\n"
    ++ "      File: " ++ Xml.escape d.location.render ++ "\n"
    ++ "    </failure>\n"

/-- What a test case is named. -/
def caseName (d : Diagnostic) : String :=
  d.symbol ++ " (" ++ d.location.render ++ ")"

def testCase (d : Diagnostic) : String :=
  "  <testcase" ++ withAttribute "classname" d.code
    ++ withAttribute "name" (Xml.escape (caseName d)) ++ ">\n"
    ++ (if d.isBlocking then failure d else "")
    ++ "  </testcase>\n"

def suiteStart (r : Report) (shown : List Diagnostic) : String :=
  "<testsuite" ++ withAttribute "name" Tool.name
    ++ withAttribute "tests" shown.length.repr
    ++ withAttribute "failures" (shown.countP (·.isBlocking)).repr
    ++ withAttribute "errors" r.faults.length.repr
    ++ withAttribute "time" ((Number.seconds r.milliseconds).fixed 3) ++ ">\n"

def render (o : ReportOptions) (r : Report) : String :=
  let shown := o.select r.diagnostics
  "<?xml version=\"1.0\" encoding=\"UTF-8\"?>\n" ++ suiteStart r shown
    ++ String.join (shown.map testCase) ++ "</testsuite>\n"

end ConventionLint.Report.Junit

namespace ConventionLint.Report.Workflow

def command (d : Diagnostic) : String :=
  "::" ++ d.severity.text ++ " file=" ++ d.location.file.text ++ ",line=" ++ d.location.line.repr
    ++ ",col=" ++ d.location.column.repr ++ ",title=" ++ d.code ++ "::" ++ d.message ++ "\n"

def render (o : ReportOptions) (r : Report) : String :=
  String.join ((o.select r.diagnostics).map command)

end ConventionLint.Report.Workflow
