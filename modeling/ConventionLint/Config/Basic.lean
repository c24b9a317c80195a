import ConventionLint.Diagnostic
import ConventionLint.Taxonomy.Marker

/-!
# Configurations

Which types are markers, which rules are changed, how an analysis runs and which paths it takes in.
Rule overrides are kept in the order of their codes, one for each.
-/
namespace ConventionLint

structure MarkerIdentities where
  root : String
  command : String
  event : String
  useCase : String
  businessRule : String
  strict : Bool
deriving DecidableEq, Repr

namespace MarkerIdentities

def standard : MarkerIdentities where
  root := "System.Object"
  command := "Slalom.Stacks.Messaging.Command"
  event := "Slalom.Stacks.Messaging.Event"
  useCase := "Slalom.Stacks.Messaging.UseCase"
  businessRule := "Slalom.Stacks.Messaging.Validation.BusinessRule"
  strict := false

def identity (m : MarkerIdentities) : MarkerKind → String
  | .root => m.root
  | .command => m.command
  | .event => m.event
  | .useCase => m.useCase
  | .businessRule => m.businessRule

def withIdentity (m : MarkerIdentities) (kind : MarkerKind) (identity : String) :
    MarkerIdentities :=
  match kind with
  | .root => { m with root := identity }
  | .command => { m with command := identity }
  | .event => { m with event := identity }
  | .useCase => { m with useCase := identity }
  | .businessRule => { m with businessRule := identity }

def markerSet (m : MarkerIdentities) : MarkerSet :=
  ⟨fun kind => .ofIdentity (m.identity kind), m.strict⟩

end MarkerIdentities

structure RuleOverride where
  enabled : Bool
  /-- The severity in place of the rule's own. -/
  severity : Option Severity
deriving DecidableEq, Repr

structure Config where
  version : String
  markers : MarkerIdentities
  rules : List (String × RuleOverride)
  reportInternalErrors : Bool
  parallel : Bool
  patterns : List String
  ignoreFile : Option String
deriving DecidableEq, Repr

namespace Config

def supportedVersions : List String :=
  ["1.0"]

/-- Build output, tooling directories and generated sources. -/
def standardPatterns : List String :=
  ["**/bin/**", "**/obj/**", "**/.git/**", "**/node_modules/**", "**/*.g.cs", "**/*.Designer.cs"]

def standard : Config where
  version := "1.0"
  markers := .standard
  rules := []
  reportInternalErrors := false
  parallel := true
  patterns := standardPatterns
  ignoreFile := some ".stacksignore"

/-- The names under which a configuration file is looked for, in order. -/
def fileNames : List String :=
  ["stacks_lint.yaml", "stacks_lint.yml", ".stacks_lint.yaml"]

/-- Puts an override into overrides in order of their codes, in place of one for the same code. -/
def putOverride (code : String) (o : RuleOverride) :
    List (String × RuleOverride) → List (String × RuleOverride)
  | [] => [(code, o)]
  | (c, p) :: rest =>
    if code = c then (c, o) :: rest
    else if code < c then (code, o) :: (c, p) :: rest
    else (c, p) :: putOverride code o rest

def withOverride (c : Config) (code : String) (o : RuleOverride) : Config :=
  { c with rules := putOverride code o c.rules }

end Config

end ConventionLint
