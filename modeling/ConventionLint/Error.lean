import ConventionLint.Config.Basic
import ConventionLint.Glob
import ConventionLint.Source.Position
import ConventionLint.Workspace.FileTree

/-!
# Errors

Why an operation as a whole fails, by cause, and the wording of each cause.
-/
namespace ConventionLint

inductive ConfigFault where
  | unsupportedVersion (version : String)
  | malformedMarker (kind : MarkerKind) (identity : String)
  | unknownOverride (code : String)
  | invalidPattern (pattern : String) (fault : Glob.Fault)
  | unknownRule (code : String)
  /-- A pattern that is only seen when paths are filtered. -/
  | invalidFilter (pattern : String) (fault : Glob.Fault)
  | unreadableIgnoreFile (path : Path) (fault : ReadFault)
  | unreadableFile (path : Path) (fault : ReadFault)
  /-- The text of a file, if any, is no configuration. -/
  | unparsable (path : Option Path)
deriving DecidableEq, Repr

inductive LintError where
  | configuration (fault : ConfigFault)
  | unreadable (fault : ReadFault)
  | noSuchPath (path : Path)
  | pattern (pattern : String) (fault : Glob.Fault)
  | source (file : Path) (fault : Source.Fault)
  | cancelled
  | unknownFormat (name : String) (known : List String)
  | blocked (errors : Nat)
deriving DecidableEq, Repr

/-- The kinds of error that callers tell apart. -/
inductive ErrorKind where
  | configuration
  | io
  | pattern
  | source
  | cancelled
  | report
deriving DecidableEq, Repr

def quoted (text : String) : String :=
  "'" ++ text ++ "'"

def invalidPatternMessage (pattern : String) (fault : Glob.Fault) : String :=
  "Pattern error: Invalid pattern " ++ quoted pattern ++ ": " ++ fault.message

namespace ConfigFault

def message : ConfigFault → String
  | .unsupportedVersion version =>
    "Unsupported configuration version " ++ quoted version ++ ". Supported versions: "
      ++ ", ".intercalate Config.supportedVersions
  | .malformedMarker kind identity =>
    "Marker " ++ quoted kind.text ++ " must be a fully-qualified type name, got " ++ quoted identity
  | .unknownOverride code => "Unknown rule code " ++ quoted code ++ " in rules section"
  | .invalidPattern pattern fault =>
    "Invalid path pattern " ++ quoted pattern ++ ": " ++ fault.message
  | .unknownRule code => "Unknown rule code " ++ quoted code
  | .invalidFilter pattern fault =>
    "Failed to create path filter: " ++ invalidPatternMessage pattern fault
  | .unreadableIgnoreFile path fault =>
    "Failed to read ignore file " ++ quoted path.text ++ ": " ++ fault.message
  | .unreadableFile path fault =>
    "Failed to read config file " ++ quoted path.text ++ ": " ++ fault.message
  | .unparsable (some path) => "Failed to parse config file " ++ quoted path.text
  | .unparsable none => "Failed to parse config"

end ConfigFault

namespace LintError

def kind : LintError → ErrorKind
  | .configuration _ => .configuration
  | .unreadable _ | .noSuchPath _ => .io
  | .pattern _ _ => .pattern
  | .source _ _ => .source
  | .cancelled => .cancelled
  | .unknownFormat _ _ | .blocked _ => .report

def message : LintError → String
  | .configuration fault => "Configuration error: " ++ fault.message
  | .unreadable fault => "IO error: " ++ fault.message
  | .noSuchPath path => "IO error: Path does not exist: " ++ path.text
  | .pattern written fault => invalidPatternMessage written fault
  | .source file fault => "Source error in " ++ file.text ++ ": " ++ fault.message
  | .cancelled => "Analysis cancelled"
  | .unknownFormat name known =>
    "Report error: Unknown output format " ++ quoted name ++ ", expected one of: "
      ++ ", ".intercalate known
  | .blocked errors =>
    "Report error: Convention check failed: " ++ errors.repr ++ " blocking diagnostic"
      ++ (if errors = 1 then "" else "s") ++ " found"

/-- The cause that an error message repeats when it is traced, for errors that have one. -/
def cause? : LintError → Option String
  | .unreadable fault => some fault.message
  | .noSuchPath path => some ("Path does not exist: " ++ path.text)
  | _ => none

end LintError

end ConventionLint
