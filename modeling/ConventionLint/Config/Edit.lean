import ConventionLint.Config.Validation

/-!
# Building configurations

A configuration can be built by edits to the standard one. Only the result has to be valid.
-/
namespace ConventionLint

inductive ConfigEdit where
  | marker (kind : MarkerKind) (identity : String)
  | strictIdentity (strict : Bool)
  | disableRule (code : String)
  | ruleSeverity (code : String) (severity : Severity)
  | reportInternalErrors (enabled : Bool)
  | parallel (enabled : Bool)
  | addPattern (pattern : String)
  | ignoreFile (name : String)
deriving DecidableEq, Repr

namespace Config

def apply (c : Config) : ConfigEdit → Config
  | .marker kind identity => { c with markers := c.markers.withIdentity kind identity }
  | .strictIdentity strict => { c with markers := { c.markers with strict } }
  | .disableRule code => c.withOverride code ⟨false, none⟩
  | .ruleSeverity code severity => c.withOverride code ⟨true, some severity⟩
  | .reportInternalErrors enabled => { c with reportInternalErrors := enabled }
  | .parallel enabled => { c with parallel := enabled }
  | .addPattern pattern => { c with patterns := c.patterns ++ [pattern] }
  | .ignoreFile name => { c with ignoreFile := some name }

/-- The standard configuration after edits. -/
def edited (edits : List ConfigEdit) : Config :=
  edits.foldl apply standard

def built (edits : List ConfigEdit) : Except LintError Config :=
  (edited edits).validated

end Config

end ConventionLint
