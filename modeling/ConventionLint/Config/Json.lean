import ConventionLint.Config.Decoding
import ConventionLint.Json.Value

/-!
# Configurations in JSON

Sections are objects. They may also be written as arrays of their fields in order, of which the last
ones may be missing.
-/
namespace ConventionLint

namespace Config

namespace Json

open ConventionLint.Json (Value)

def text? : Value → Option String
  | .text s => some s
  | _ => none

def flag? : Value → Option Bool
  | .bool b => some b
  | _ => none

/-- A severity by its name, or as an object with that name alone and no value. -/
def severity? : Value → Option Severity
  | .text s => Severity.ofText? s
  | .object [(s, .null)] => Severity.ofText? s
  | _ => none

def isNull : Value → Bool
  | .null => true
  | _ => false

def items? : Value → Option (List Value)
  | .array items => some items
  | _ => none

def entries? : Value → Option (List (String × Value))
  | .object members => some members
  | _ => none

def fields? (known : List String) : Value → Option (List (String × Value))
  | .object members => some (members.filter (known.contains ·.1))
  | .array items => if known.length < items.length then none else some (known.zip items)
  | _ => none

def written : Notation Value where
  text? := text?
  flag? := flag?
  severity? := severity?
  isAbsent? v := some (isNull v)
  items? := items?
  entries? := entries?
  fields? := fields?

def ofOverride (o : RuleOverride) : Value :=
  .object [("enabled", .bool o.enabled), ("severity", .ofOption (.text ·.text) o.severity)]

def ofMarkers (m : MarkerIdentities) : Value :=
  .object [("root", .text m.root), ("command", .text m.command), ("event", .text m.event),
    ("use_case", .text m.useCase), ("business_rule", .text m.businessRule),
    ("strict_identity", .bool m.strict)]

end Json

def ofJson? (v : ConventionLint.Json.Value) : Option Config :=
  decode Json.written v

/-- All fields of a configuration. -/
def toJson (c : Config) : ConventionLint.Json.Value :=
  .object [
    ("version", .text c.version),
    ("markers", Json.ofMarkers c.markers),
    ("rules", .object (c.rules.map fun (code, o) => (code, Json.ofOverride o))),
    ("analysis", .object [
      ("report_internal_errors", .bool c.reportInternalErrors),
      ("parallel", .bool c.parallel)]),
    ("paths", .object [
      ("patterns", .texts c.patterns),
      ("ignore_file", .ofOption .text c.ignoreFile)])]

end Config

namespace MarkerIdentities

def ofJson? (v : Json.Value) : Option MarkerIdentities :=
  Config.decodeMarkers Config.Json.written v

end MarkerIdentities

end ConventionLint
