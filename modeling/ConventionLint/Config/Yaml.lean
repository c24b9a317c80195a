import ConventionLint.Config.Decoding
import ConventionLint.Config.Validation
import ConventionLint.Yaml.Node

/-!
# Configurations in YAML

Every scalar is a text, whatever it looks like. What is left empty where a section, map or list
belongs is an empty one; a null that is written out is not. A configuration file is looked for in a
directory under its conventional names.
-/
namespace ConventionLint

namespace Config

namespace Yaml

open ConventionLint.Yaml (Document Node ScalarStyle)

/-- Whether a scalar is written as nothing at all. -/
def isBlankScalar (text : String) (style : ScalarStyle) : Bool :=
  text.isEmpty && style = .plain

def isNull (text : String) : Bool :=
  ["null", "Null", "NULL", "~"].contains text

def text? : Node → Option String
  | .scalar text _ _ => some text
  | _ => none

def truth? (text : String) : Option Bool :=
  if ["true", "True", "TRUE"].contains text then some true
  else if ["false", "False", "FALSE"].contains text then some false
  else none

/-- A plain scalar, or a literal one with the tag of flags. -/
def flag? : Node → Option Bool
  | .scalar text .plain _ => truth? text
  | .scalar text .literal (some "tag:yaml.org,2002:bool") => truth? text
  | _ => none

def items? : Node → Option (List Node)
  | .sequence items => some items
  | .scalar text style _ => if isBlankScalar text style then some [] else none
  | _ => none

/-- The entries of a map whose keys are scalars. -/
def entries? (d : Document) : Node → Option (List (String × Node))
  | .mapping entries => entries.mapM fun (key, value) => (text? (d.follow key)).map (·, value)
  | .scalar text style _ => if isBlankScalar text style then some [] else none
  | _ => none

/-- The known fields of a section, each of which stands there once at most. -/
def fields? (d : Document) (known : List String) (node : Node) :
    Option (List (String × Node)) := do
  let fields := (← entries? d node).filter (known.contains ·.1)
  if (fields.map (·.1)).Nodup then some fields else none

def nullTag : String := "tag:yaml.org,2002:null"

/-- Whether a scalar is a plain null, or nothing. Behind the tag of nulls there has to be a null;
any other tag makes a value. -/
def isAbsent? : Node → Option Bool
  | .scalar text .plain none => some (text.isEmpty || isNull text)
  | .scalar text .plain (some tag) =>
    if tag = nullTag then if isNull text then some true else none else some false
  | _ => some false

/-- The name behind the mark of a tag that belongs to the document. -/
def localTag (tag : Option String) : Option String :=
  match tag.map String.toList with
  | some ['!'] => some "!"
  | some ('!' :: name) => some (String.ofList name)
  | _ => none

/-- A severity by its name, or as a tag with that name and no value. -/
def severity? : Node → Option Severity
  | .scalar text style tag =>
    match localTag tag with
    | some name =>
      if style = .plain && (text.isEmpty || isNull text) then Severity.ofText? name else none
    | none => Severity.ofText? text
  | _ => none

def written (d : Document) : Notation Node where
  text? node := text? (d.follow node)
  flag? node := flag? (d.follow node)
  severity? node := severity? (d.follow node)
  isAbsent? node := isAbsent? (d.follow node)
  items? node := items? (d.follow node)
  entries? node := entries? d (d.follow node)
  fields? known node := fields? d known (d.follow node)

end Yaml

/-- The configuration that a text describes, valid or not. -/
def ofYaml? (text : String) : Option Config := do
  let d ← ConventionLint.Yaml.document? text
  decode (Yaml.written d) d.root

/-- The valid configuration that a text describes. -/
def parse (text : String) : Except LintError Config :=
  match ofYaml? text with
  | some c => c.validated
  | none => .error (.configuration (.unparsable none))

/-- The configuration file of a directory. -/
def discover (tree : FileTree) (dir : Path) : Option Path :=
  (fileNames.map dir.join).find? tree.isFile

/-- The valid configuration in a file. -/
def load (tree : FileTree) (p : Path) : Except LintError Config :=
  match tree.read p with
  | .error fault => .error (.configuration (.unreadableFile p fault))
  | .ok text =>
    match ofYaml? text with
    | none => .error (.configuration (.unparsable (some p)))
    | some c => c.validated

end Config

end ConventionLint
