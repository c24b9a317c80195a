import ConventionLint.Json.Value
import ConventionLint.Report.Basic
import ConventionLint.Rule.Standard

/-!
# Reports in JSON

The tool's own form, and that of SARIF: one run of the tool with all descriptors of the catalog as
its rules. The members of every object stand in the order of their names.
-/
namespace ConventionLint

open ConventionLint.Json (Value)

namespace Fix

def toJson : Fix → Value
  | .appendSuffix suffix => .object [("kind", .text "append_suffix"), ("suffix", .text suffix)]
  | .removeSetter => .object [("kind", .text "remove_setter")]
  | .demoteSetter => .object [("kind", .text "demote_setter")]
  | .synthesizeBusinessRule command qualifier =>
    .object [("command", .text command), ("kind", .text "synthesize_business_rule"),
      ("namespace", .ofOption .text qualifier)]

end Fix

def Diagnostic.toJson (d : Diagnostic) : Value :=
  .object [
    ("category", .text d.descriptor.category.text),
    ("code", .text d.code),
    ("column", .number d.location.column),
    ("file_path", .text d.location.file.text),
    ("fixes", .array (d.fixes.map (·.toJson))),
    ("line", .number d.location.line),
    ("message", .text d.message),
    ("severity", .text d.severity.text),
    ("symbol", .text d.symbol)]

def EvaluationFault.toJson (f : EvaluationFault) : Value :=
  .object [("code", .text f.code), ("message", .text f.message), ("symbol", .text f.symbol)]

namespace Report.Json

def summary (r : Report) : Value :=
  .object [
    ("analyzed_at", .text r.analyzedAt.render),
    ("diagnostics_by_severity", .object [
      ("error", .number r.errorCount),
      ("warning", .number r.warningCount)]),
    ("execution_time_ms", .number r.milliseconds),
    ("total_files", .number r.fileCount),
    ("total_types", .number r.typeCount)]

def value (o : ReportOptions) (r : Report) : Value :=
  .object [
    ("config_fingerprint", .ofOption .text r.fingerprint),
    ("diagnostics", .array ((o.select r.diagnostics).map (·.toJson))),
    ("faults", .array (r.faults.map (·.toJson))),
    ("summary", summary r)]

def render (o : ReportOptions) (r : Report) : String :=
  (value o r).render

end Report.Json

end ConventionLint

namespace ConventionLint.Report.Sarif

open ConventionLint.Json (Value)

/-- An object that holds nothing but a text. -/
def message (text : String) : Value :=
  .object [("text", .text text)]

def rule (d : Descriptor) : Value :=
  .object [
    ("defaultConfiguration", .object [("level", .text d.severity.text)]),
    ("fullDescription", message d.description),
    ("id", .text d.code),
    ("name", .text d.title),
    ("properties", .object [("category", .text d.category.text)]),
    ("shortDescription", message d.title)]

def location (d : Diagnostic) : Value :=
  .object [
    ("logicalLocations", .array [.object [("name", .text d.symbol)]]),
    ("physicalLocation", .object [
      ("artifactLocation", .object [("uri", .text d.location.file.text)]),
      ("region", .object [
        ("startColumn", .number d.location.column),
        ("startLine", .number d.location.line)])])]

def result (d : Diagnostic) : Value :=
  .object [
    ("fixes", .array (d.fixes.map fun fix => .object [("description", message fix.title)])),
    ("level", .text d.severity.text),
    ("locations", .array [location d]),
    ("message", message d.message),
    ("ruleId", .text d.code)]

def driver : Value :=
  .object [
    ("name", .text Tool.name),
    ("rules", .array (Descriptor.catalog.map rule)),
    ("version", .text Tool.version)]

def value (o : ReportOptions) (r : Report) : Value :=
  .object [
    ("$schema", .text "https://json.schemastore.org/sarif-2.1.0.json"),
    ("runs", .array [.object [
      ("results", .array ((o.select r.diagnostics).map result)),
      ("tool", .object [("driver", driver)])]]),
    ("version", .text "2.1.0")]

def render (o : ReportOptions) (r : Report) : String :=
  (value o r).render

end ConventionLint.Report.Sarif
