import ConventionLint.Error
import ConventionLint.Glob
import ConventionLint.Path
import ConventionLint.Text.CharClass
import ConventionLint.Text.Split

/-!
# Path filters

A line of an ignore file, or a configured pattern, takes paths out, or in again with an exclamation
mark in front. A pattern with a slash inside is matched against the whole path, any other against
the name; one that ends in a slash is matched against the directories that a path lies in.

Of the configured patterns that match a path the last one decides, and a path that none matches is
in. A path that is in can still be left out by the ignore files in the directories around it: they
are read as one list of patterns, the nearest file's last, and again the last match decides.
-/
namespace ConventionLint

structure FilterPattern where
  tokens : List Glob.Token
  /-- Matched against whole paths. -/
  whole : Bool
  /-- Matched against directories. -/
  directory : Bool
  /-- Takes in what earlier patterns left out. -/
  reincludes : Bool
  /-- The pattern as written, without the exclamation mark. -/
  written : String
deriving DecidableEq, Repr

namespace FilterPattern

/-- The pattern behind an exclamation mark, and whether there is one. -/
def splitMark (line : String) : Bool × List Char :=
  match line.toList with
  | '!' :: body => (true, body)
  | body => (false, body)

/-- Reads a pattern in the syntax that `compile` knows. -/
def parseWith (compile : Glob.Compiler) (line : String) : Except Glob.Fault FilterPattern :=
  let (reincludes, body) := splitMark line
  let inner := String.ofList (Text.trimEnd (· = '/') (body.dropWhile (· = '/')))
  (compile inner).map fun tokens =>
    { tokens, reincludes
      whole := inner.toList.contains '/'
      directory := body.getLast? = some '/'
      written := String.ofList body }

section

variable (g : Glob.Dialect) (f : FilterPattern) (p : Path)

/-- Whether the pattern matches a path or directory itself. -/
def holds : Bool :=
  if f.whole then g.isMatch f.tokens p.text.toList
  else p.fileName.any fun name => g.isMatch f.tokens name.toList

def isMatch : Bool :=
  if f.directory then p.directories.any (f.holds g) else f.holds g p

end

end FilterPattern

structure PathFilter where
  patterns : List FilterPattern
  /-- The name of the ignore files that count, if any do. -/
  ignoreName : Option String
deriving DecidableEq, Repr

namespace PathFilter

def parsePatternWith (compile : Glob.Compiler) (written : String) :
    Except LintError FilterPattern :=
  match FilterPattern.parseWith compile written with
  | .ok pattern => .ok pattern
  | .error fault => .error (.pattern written fault)

def parsePattern (written : String) : Except LintError FilterPattern :=
  parsePatternWith Glob.compile written

/-- The filter of the given patterns, or the first of them that is none. -/
def ofPatternsWith (compile : Glob.Compiler) (patterns : List String)
    (ignoreName : Option String) : Except LintError PathFilter := do
  return ⟨← patterns.mapM (parsePatternWith compile), ignoreName⟩

def ofPatterns (patterns : List String) (ignoreName : Option String) :
    Except LintError PathFilter :=
  ofPatternsWith Glob.compile patterns ignoreName

/-- Build output and generated sources are left out, and ignore files count. -/
def standardPatterns : List String :=
  ["**/bin/**", "**/obj/**", "**/.git/**", "**/*.g.cs", "**/*.Designer.cs"]

def standard : Except LintError PathFilter :=
  ofPatterns standardPatterns (some ".stacksignore")

def add (f : PathFilter) (written : String) : Except LintError PathFilter := do
  return { f with patterns := f.patterns ++ [← parsePattern written] }

/-- A pattern together with the path it is held against. -/
abbrev Candidate := FilterPattern × Path

section

variable (g : Glob.Dialect)

/-- Whether the last pattern that matches takes its path in, if any matches. -/
def verdict (candidates : List Candidate) : Option Bool :=
  (candidates.reverse.find? fun (pattern, p) => pattern.isMatch g p).map (·.1.reincludes)

/-- The pattern on a line of an ignore file. Blank lines and comments have none, and neither has what
is no pattern. -/
def patternOn? (line : List Char) : Option FilterPattern :=
  match Text.trimBoth Text.isBlank line with
  | [] | '#' :: _ => none
  | trimmed => (FilterPattern.parseWith g.compile (String.ofList trimmed)).toOption

def ignorePatterns (text : String) : List FilterPattern :=
  (Text.splitLines text.toList).filterMap (patternOn? g)

/-- What the ignore file of one directory, if it has one, holds against a path below. -/
def ignoreCandidates (files : FileAccess) (name : String) (p dir : Path) :
    Except LintError (List Candidate) :=
  let file := dir.join name
  match files.isFile file, p.relativeTo dir with
  | true, some relative =>
    match files.read file with
    | .ok text => .ok ((ignorePatterns g text).map (·, relative))
    | .error fault => .error (.configuration (.unreadableIgnoreFile file fault))
  | _, _ => .ok []

/-- Whether the ignore files around a path leave it out. -/
def isIgnored (files : FileAccess) (name : String) (p : Path) : Except LintError Bool := do
  let candidates ← p.directories.reverse.mapM (ignoreCandidates g files name p)
  return verdict g candidates.flatten = some false

def shouldAnalyzeWith (f : PathFilter) (files : FileAccess) (p : Path) : Except LintError Bool :=
  if verdict g (f.patterns.map (·, p)) = some false then .ok false
  else
    match f.ignoreName with
    | none => .ok true
    | some name => (isIgnored g files name p).map (!·)

end

def shouldAnalyze (f : PathFilter) (tree : FileTree) (p : Path) : Except LintError Bool :=
  f.shouldAnalyzeWith .standard tree.access p

/-- The paths that are in, in the order given. -/
def filter (f : PathFilter) (tree : FileTree) : List Path → Except LintError (List Path)
  | [] => .ok []
  | p :: ps => do
    let isIn ← f.shouldAnalyze tree p
    let rest ← f.filter tree ps
    return if isIn then p :: rest else rest

/-- The files at or below a path that are in. -/
def filesUnder (f : PathFilter) (tree : FileTree) (p : Path) : Except LintError (List Path) :=
  f.filter tree (tree.filesUnder p)

/-- One line for each configured pattern, saying whether it matches. -/
def explain (f : PathFilter) (p : Path) : List String :=
  f.patterns.mapIdx fun i pattern =>
    "Pattern " ++ i.repr ++ ": " ++ (if pattern.reincludes then "!" else "") ++ pattern.written
      ++ " -> " ++ if pattern.isMatch .standard p then "MATCH" else "no match"

end PathFilter

end ConventionLint
