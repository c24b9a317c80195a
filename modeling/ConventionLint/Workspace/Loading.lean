import ConventionLint.Binding.Build
import ConventionLint.Error
import ConventionLint.Source.FileReading
import ConventionLint.Workspace.PathFilter

/-!
# Discovering and loading sources

A list of files and directories means source files: sorted, each once, and only those that the
filter takes in. They are bound in the order of their paths, whatever the order in which they were
named.
-/
namespace ConventionLint

namespace PathFilter

/-- The source files that one argument means. -/
def sourcesAt (f : PathFilter) (tree : FileTree) (p : Path) : Except LintError (List Path) := do
  if tree.isDirectory p then
    return (← f.filesUnder tree p).filter (·.isSource)
  else if tree.isFile p then
    if p.isSource then f.filter tree [p] else return []
  else throw (.noSuchPath p)

def discover (f : PathFilter) (tree : FileTree) (paths : List Path) :
    Except LintError (List Path) := do
  let found ← paths.mapM (f.sourcesAt tree)
  return Path.sortedSet found.flatten

end PathFilter

/-- A source with its path. -/
structure Source where
  path : Path
  text : String
deriving DecidableEq, Repr

namespace Source

def scan (s : Source) : Except LintError SourceFile :=
  match SourceFile.scan s.path s.text with
  | .ok file => .ok file
  | .error fault => .error (.source s.path fault)

def le (a b : Source) : Bool :=
  a.path.le b.path

/-- The files of sources in the order of their paths. -/
def scanAll (sources : List Source) : Except LintError (List SourceFile) :=
  (sources.mergeSort le).mapM (·.scan)

end Source

namespace Compilation

/-- The compilation of sources, none of which may be faulty. -/
def ofSources (root : String) (sources : List Source) : Except LintError Compilation := do
  return .ofFiles root (← Source.scanAll sources)

def scanAt (tree : FileTree) (p : Path) : Except LintError SourceFile :=
  match tree.read p with
  | .ok text => Source.scan ⟨p, text⟩
  | .error fault => .error (.unreadable fault)

/-- The compilation of files. What cannot be read or scanned is skipped, unless `failFast`. -/
def load (tree : FileTree) (root : String) (failFast : Bool) (files : List Path) :
    Except LintError Compilation :=
  let scans := (files.mergeSort Path.le).map (scanAt tree)
  if failFast then (scans.mapM id).map (.ofFiles root)
  else .ok (.ofFiles root (scans.filterMap (·.toOption)))

end Compilation

end ConventionLint
