import ConventionLint.Error
import ConventionLint.Report.Human
import ConventionLint.Report.Json
import ConventionLint.Report.BuildServer
import ConventionLint.Text.LetterCase

/-!
# Output formats

The forms in which a report can be rendered, and their names, which may be written in any case.
-/
namespace ConventionLint

inductive OutputFormat where
  | human
  | json
  | junit
  | sarif
  | github
deriving DecidableEq, Repr

namespace OutputFormat

def all : List OutputFormat :=
  [.human, .json, .junit, .sarif, .github]

def name : OutputFormat → String
  | .human => "human"
  | .json => "json"
  | .junit => "junit"
  | .sarif => "sarif"
  | .github => "github"

def parse (written : String) : Except LintError OutputFormat :=
  let lower := Text.toLowercase written
  match all.find? (·.name = lower) with
  | some format => .ok format
  | none => .error (.unknownFormat lower (all.map name))

def render (format : OutputFormat) (o : ReportOptions) (r : Report) : String :=
  match format with
  | .human => Report.Human.render o r
  | .json => Report.Json.render o r
  | .junit => Report.Junit.render o r
  | .sarif => Report.Sarif.render o r
  | .github => Report.Workflow.render o r

end OutputFormat

end ConventionLint
