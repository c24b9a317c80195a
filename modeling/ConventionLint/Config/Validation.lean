import ConventionLint.Config.Basic
import ConventionLint.Error
import ConventionLint.Rule.Standard
import ConventionLint.Text.CharClass
import ConventionLint.Text.Split

/-!
# Valid configurations and their rules

A configuration is valid when its version is supported, its markers are qualified names, its
overrides name rules and its patterns are patterns. Of several faults the first in this order is
reported. Every rule is in the set of a configuration unless it is switched off, at the severity
that the configuration gives it or else at its own. Codes are compared without regard to case; the
first override of a rule counts.
-/
namespace ConventionLint

/-- An ASCII letter or an underscore, and then ASCII letters, digits and underscores. -/
def isIdentitySegment : List Char → Bool
  | [] => false
  | c :: rest => (c.isAlpha || c = '_') && rest.all fun c => c.isAlphanum || c = '_'

/-- Segments with dots between them. -/
def isIdentity (s : String) : Bool :=
  (Text.splitAtEach '.' s.toList).all isIdentitySegment

/-- Whether a code in any case is that of a rule. -/
def isRuleCode (code : String) : Bool :=
  (Descriptor.find? code).any (·.code ≠ internalError.code)

namespace Config

/-- A check that faults unless a condition holds. -/
def require (holds : Bool) (fault : ConfigFault) : Except ConfigFault Unit :=
  if holds then .ok () else .error fault

/-- A configured pattern without an exclamation mark in front and without slashes around it. -/
def patternText (written : String) : String :=
  let body := match written.toList with
    | '!' :: body => body
    | body => body
  String.ofList (Text.trimBoth (· = '/') body)

section

variable (compile : Glob.Compiler)

def checkPattern (written : String) : Except ConfigFault Unit :=
  match compile (patternText written) with
  | .ok _ => .ok ()
  | .error fault => .error (.invalidPattern written fault)

/-- Checks a configuration whose patterns are written in the syntax that `compile` knows. -/
def checkWith (c : Config) : Except ConfigFault Unit := do
  require (supportedVersions.contains c.version) (.unsupportedVersion c.version)
  MarkerKind.all.forM fun kind =>
    let identity := c.markers.identity kind
    require (isIdentity identity) (.malformedMarker kind identity)
  c.rules.forM fun (code, _) => require (isRuleCode code) (.unknownOverride code)
  c.patterns.forM (checkPattern compile)

/-- The configuration itself, if it is valid. -/
def validatedWith (c : Config) : Except LintError Config :=
  match c.checkWith compile with
  | .ok () => .ok c
  | .error fault => .error (.configuration fault)

end

def check (c : Config) : Except ConfigFault Unit :=
  c.checkWith Glob.compile

def validated (c : Config) : Except LintError Config :=
  c.validatedWith Glob.compile

def override? (c : Config) (code : String) : Option RuleOverride :=
  (c.rules.find? fun (written, _) => Descriptor.sameCode written code).map (·.2)

/-- A rule as the configuration wants it, if it does. -/
def register (c : Config) (rule : Rule) : Option RegisteredRule :=
  match c.override? rule.descriptor.code with
  | none => some (.standard rule)
  | some o => if o.enabled then some ⟨rule, o.severity.getD rule.descriptor.severity⟩ else none

def ruleSet (c : Config) : Except LintError RuleSet := do
  c.rules.forM fun (code, _) =>
    if isRuleCode code then pure () else throw (.configuration (.unknownRule code))
  return ⟨Rule.standard.filterMap c.register, c.reportInternalErrors⟩

end Config

end ConventionLint
