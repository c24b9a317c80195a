import ConventionLint.Path

/-!
# File trees

The files and directories of a system, as a value: those below the root, and the directory that
relative paths start from. There are no links, and a step upwards from the root stays there.
-/
namespace ConventionLint

/-- What a file holds, as far as an analysis can tell. -/
inductive FileContent where
  | text (s : String)
  /-- No valid UTF-8. -/
  | binary
deriving DecidableEq, Repr

def FileContent.ofBytes (bytes : ByteArray) : FileContent :=
  match String.fromUTF8? bytes with
  | some s => .text s
  | none => .binary

inductive ReadFault where
  | notFound
  | notDirectory
  | isDirectory
  | notText
deriving DecidableEq, Repr

def ReadFault.message : ReadFault → String
  | .notFound => "No such file or directory (os error 2)"
  | .notDirectory => "Not a directory (os error 20)"
  | .isDirectory => "Is a directory (os error 21)"
  | .notText => "stream did not contain valid UTF-8"

/-- What can be asked about the files of a system, wherever its paths start. -/
structure FileAccess where
  isFile : Path → Bool
  read : Path → Except ReadFault String

/-- A file, or a directory with what stands in it. -/
inductive FileNode where
  | file (content : FileContent)
  | directory (entries : List (String × FileNode))

namespace FileNode

def empty : FileNode := .directory []

/-- Where steps lead to, `above` being the directories around, from the nearest to the root. -/
def walk (above : List FileNode) (here : FileNode) : List Path.Component → Except ReadFault FileNode
  | [] => .ok here
  | component :: rest =>
    match here with
    | .file _ => .error .notDirectory
    | .directory entries =>
      match component with
      | .current => walk above here rest
      | .root => walk [] (above.getLast?.getD here) rest
      | .parent =>
        match above with
        | [] => walk [] here rest
        | outer :: further => walk further outer rest
      | .name name =>
        match entries.lookup name with
        | some inner => walk (here :: above) inner rest
        | none => .error .notFound

mutual

/-- The files of a node that stands at a path. -/
def filesBelow (p : Path) : FileNode → List Path
  | .file _ => [p]
  | .directory entries => filesOfEntries p entries

def filesOfEntries (p : Path) : List (String × FileNode) → List Path
  | [] => []
  | (name, node) :: rest => filesBelow (p.join name) node ++ filesOfEntries p rest

end

/-- Puts an entry into a list of entries. -/
def putEntry (name : String) (node : FileNode) : List (String × FileNode) → List (String × FileNode)
  | [] => [(name, node)]
  | (n, t) :: rest => if n = name then (n, node) :: rest else (n, t) :: putEntry name node rest

/-- Puts a node where names lead to, with the directories on the way there. -/
def put (node : FileNode) (names : List String) (inner : FileNode) : FileNode :=
  match names with
  | [] => inner
  | name :: rest =>
    let entries := match node with
      | .directory entries => entries
      | .file _ => []
    .directory (putEntry name (put ((entries.lookup name).getD empty) rest inner) entries)

/-- Takes the node that names lead to away. -/
def remove : List String → FileNode → FileNode
  | _, .file content => .file content
  | [], node => node
  | [name], .directory entries => .directory (entries.filter (·.1 ≠ name))
  | name :: rest, .directory entries =>
    .directory (entries.map fun (n, t) => (n, if n = name then remove rest t else t))

end FileNode

/-- The files of a system, as someone in a directory sees them. -/
structure FileTree where
  root : FileNode
  /-- The names that lead from the root to where relative paths start. -/
  workingDirectory : List String

namespace FileTree

def empty : FileTree := ⟨.empty, []⟩

/-- The steps from the root to a path. -/
def stepsTo (tree : FileTree) (p : Path) : List Path.Component :=
  if p.anchor = .root then p.components
  else tree.workingDirectory.map .name ++ p.components

/-- Whether a path can only mean a directory, going by how it ends. -/
def endsAsDirectory (p : Path) : Bool :=
  p.segments.getLast?.any Path.isFiller

def resolve (tree : FileTree) (p : Path) : Except ReadFault FileNode :=
  if p.text.isEmpty then .error .notFound
  else
    match tree.root.walk [] (tree.stepsTo p) with
    | .ok (.file content) =>
      if endsAsDirectory p then .error .notDirectory else .ok (.file content)
    | found => found

def isFile (tree : FileTree) (p : Path) : Bool :=
  match tree.resolve p with
  | .ok (.file _) => true
  | _ => false

def isDirectory (tree : FileTree) (p : Path) : Bool :=
  match tree.resolve p with
  | .ok (.directory _) => true
  | _ => false

def read (tree : FileTree) (p : Path) : Except ReadFault String :=
  match tree.resolve p with
  | .ok (.file (.text s)) => .ok s
  | .ok (.file .binary) => .error .notText
  | .ok (.directory _) => .error .isDirectory
  | .error fault => .error fault

def access (tree : FileTree) : FileAccess :=
  ⟨tree.isFile, tree.read⟩

/-- The files at or below a path, in order; none where nothing is. -/
def filesUnder (tree : FileTree) (p : Path) : List Path :=
  match tree.resolve p with
  | .ok found => (found.filesBelow p).mergeSort Path.le
  | .error _ => []

/-- Puts a node where names lead to from the working directory. -/
def put (tree : FileTree) (names : List String) (inner : FileNode) : FileTree :=
  { tree with root := tree.root.put (tree.workingDirectory ++ names) inner }

def remove (tree : FileTree) (names : List String) : FileTree :=
  { tree with root := tree.root.remove (tree.workingDirectory ++ names) }

end FileTree

end ConventionLint
