import ConventionLint.Config.Basic

/-!
# Configurations from documents

A configuration is written as a section of named fields, some of which are sections themselves. A
field that is missing has its standard value; a field that nobody knows is skipped. What counts as a
section, a list, a text or a flag depends on the notation.
-/
namespace ConventionLint

/-- How the values of a notation are read. Every reading fails on a value of another shape. -/
structure Notation (α : Type) where
  text? : α → Option String
  flag? : α → Option Bool
  severity? : α → Option Severity
  /-- Whether an optional field with this value counts as left out. -/
  isAbsent? : α → Option Bool
  items? : α → Option (List α)
  /-- The entries of a map, whose keys are texts. -/
  entries? : α → Option (List (String × α))
  /-- The values that a section has for known fields. -/
  fields? : List String → α → Option (List (String × α))

namespace Config

section

variable {α : Type} (n : Notation α)

/-- The value of a field, or its standard value. -/
def field {β : Type} (fields : List (String × α)) (name : String) (read : α → Option β)
    (standard : β) : Option β :=
  match fields.lookup name with
  | none => some standard
  | some a => read a

/-- Reads the value of an optional field. -/
def optional {β : Type} (read : α → Option β) (a : α) : Option (Option β) := do
  if ← n.isAbsent? a then some none else (read a).map some

def decodeMarkers (a : α) : Option MarkerIdentities := do
  let fields ← n.fields?
    ["root", "command", "event", "use_case", "business_rule", "strict_identity"] a
  let standard := MarkerIdentities.standard
  return {
    root := ← field fields "root" n.text? standard.root
    command := ← field fields "command" n.text? standard.command
    event := ← field fields "event" n.text? standard.event
    useCase := ← field fields "use_case" n.text? standard.useCase
    businessRule := ← field fields "business_rule" n.text? standard.businessRule
    strict := ← field fields "strict_identity" n.flag? standard.strict }

def decodeOverride (a : α) : Option RuleOverride := do
  let fields ← n.fields? ["enabled", "severity"] a
  return {
    enabled := ← field fields "enabled" n.flag? true
    severity := ← field fields "severity" (optional n n.severity?) none }

/-- The overrides of a map. Of two with the same code the later one counts. -/
def decodeRules (a : α) : Option (List (String × RuleOverride)) := do
  let written ← (← n.entries? a).mapM fun (code, a) => (decodeOverride n a).map (code, ·)
  return written.foldl (fun rules (code, o) => putOverride code o rules) []

/-- Whether internal errors are reported, and whether analyses run in parallel. -/
def decodeAnalysis (a : α) : Option (Bool × Bool) := do
  let fields ← n.fields? ["report_internal_errors", "parallel"] a
  return (← field fields "report_internal_errors" n.flag? standard.reportInternalErrors,
    ← field fields "parallel" n.flag? standard.parallel)

/-- The patterns and the name of ignore files. A section without them has none. -/
def decodePaths (a : α) : Option (List String × Option String) := do
  let fields ← n.fields? ["patterns", "ignore_file"] a
  return (← field fields "patterns" (fun a => (n.items? a).bind (·.mapM n.text?)) [],
    ← field fields "ignore_file" (optional n n.text?) none)

def decode (a : α) : Option Config := do
  let fields ← n.fields? ["version", "markers", "rules", "analysis", "paths"] a
  let version ← field fields "version" n.text? standard.version
  let markers ← field fields "markers" (decodeMarkers n) standard.markers
  let rules ← field fields "rules" (decodeRules n) standard.rules
  let (reportInternalErrors, parallel) ← field fields "analysis" (decodeAnalysis n)
    (standard.reportInternalErrors, standard.parallel)
  let (patterns, ignoreFile) ← field fields "paths" (decodePaths n)
    (standard.patterns, standard.ignoreFile)
  return { version, markers, rules, reportInternalErrors, parallel, patterns, ignoreFile }

end

end Config

end ConventionLint
