import ConventionLint.CommandLine.Execution
import Std.Time.DateTime.Timestamp

/-!
# The tool

Shows a command the files of the system and the present time, and prints what it answers. Of the
system it sees what is in the current directory, what the arguments name, and the files that stand
in the directories around. Symbolic links and other special entries are not followed.
-/
namespace ConventionLint

/-- Reads an entry of a directory with everything below it. -/
partial def readEntry (entry : IO.FS.DirEntry) : IO (Option (String × FileNode)) := do
  match (← entry.path.symlinkMetadata).type with
  | .dir =>
    let entries ← (← entry.path.readDir).toList.filterMapM readEntry
    return some (entry.fileName, .directory entries)
  | .file =>
    let content := FileContent.ofBytes (← IO.FS.readBinFile entry.path)
    return some (entry.fileName, .file content)
  | _ => return none

/-- Reads the entries of a directory, or only the files among them. -/
def readDirectory (directory : String) (files : Bool) : IO FileNode := do
  let entries ← (← (← IO.FS.realPath directory).readDir).toList.filterM fun entry => do
    return !files || (← entry.path.symlinkMetadata).type matches .file
  return .directory (← entries.filterMapM readEntry)

/-- Adds what an argument names to a root, with the files around it. -/
def readPlace (root : FileNode) (argument : String) : IO FileNode := do
  let names := (← IO.FS.realPath argument).components.filter (· ≠ "")
  let mut root := root
  for depth in [0:names.length] do
    let around := names.take depth
    if let .directory entries ← readDirectory ("/" ++ "/".intercalate around) true then
      for (name, node) in entries do
        root := root.put (around ++ [name]) node
  if ← (← IO.FS.realPath argument).isDir then
    root := root.put names (← readDirectory argument false)
  return root

def readSurroundings (arguments : List String) : IO CommandLine.Surroundings := do
  let here ← IO.FS.realPath "."
  let root ← ("." :: arguments).foldlM
    (fun root argument => try readPlace root argument catch _ => return root) .empty
  let nanoseconds := (← Std.Time.Timestamp.now).toNanosecondsSinceUnixEpoch.val
  return {
    tree := ⟨root, here.components.filter (· ≠ "")⟩
    now := ⟨nanoseconds.fdiv 1000000000, (nanoseconds.fmod 1000000000).toNat⟩
    isTerminal := ← (← IO.getStdout).isTty }

end ConventionLint

def main (arguments : List String) : IO UInt32 := do
  let tree ← ConventionLint.readSurroundings arguments
  let result := ConventionLint.CommandLine.run tree arguments
  IO.print result.output
  IO.eprint result.errors
  return result.exit.toUInt32
