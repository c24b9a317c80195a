import ConventionLint.Proofs.Lists
import ConventionLint.Proofs.Workspace.Directories
import ConventionLint.Workspace.PathFilter

/-!
# Which paths are in

A list of lines decides on a path by the last line that matches: it has to carry an exclamation
mark. The configured patterns are such a list. So are all lines that count in the ignore files
around the path, the outermost file's first, each held against the path as its own directory sees
it. A path is in when neither list leaves it out.
-/
namespace ConventionLint

namespace FilterPattern

/-- A line that is a pattern and matches the path. -/
def LineMatches (g : Glob.Dialect) (line : String) (p : Path) : Prop :=
  ∃ f, parseWith g.compile line = .ok f ∧ f.isMatch g p = true

def IsMarked (line : String) : Prop :=
  line.toList.head? = some '!'

variable {g : Glob.Dialect} {line : String} {f : FilterPattern}

/-- A pattern as written, without the exclamation mark. -/
def body (line : String) : List Char :=
  (splitMark line).2

/-- A pattern without the exclamation mark and without the slashes around it. -/
def inner (line : String) : List Char :=
  Text.trimEnd (· = '/') ((body line).dropWhile (· = '/'))

theorem parseWith_eq_ok_iff {compile : Glob.Compiler} : parseWith compile line = .ok f ↔
    ∃ tokens, compile (String.ofList (inner line)) = .ok tokens ∧
      f = ⟨tokens, (inner line).contains '/', (body line).getLast? = some '/',
        (splitMark line).1, String.ofList (body line)⟩ := by
  have read : parseWith compile line = (compile (String.ofList (inner line))).map fun tokens =>
      ⟨tokens, (inner line).contains '/', (body line).getLast? = some '/',
        (splitMark line).1, String.ofList (body line)⟩ := by
    simp only [parseWith, String.toList_ofList]
    rfl
  rw [read]
  cases compile (String.ofList (inner line)) with
  | error fault => exact ⟨nofun, nofun⟩
  | ok tokens => simp [Except.map, eq_comm]

theorem isMarked_iff : (splitMark line).1 = true ↔ IsMarked line := by
  rw [splitMark, IsMarked]
  split <;> simp_all [List.head?_eq_some_iff]

theorem reincludes_iff (parsed : parseWith g.compile line = .ok f) :
    f.reincludes = true ↔ IsMarked line := by
  obtain ⟨tokens, -, rfl⟩ := parseWith_eq_ok_iff.1 parsed
  exact isMarked_iff

theorem lineMatches_iff {p : Path} (parsed : parseWith g.compile line = .ok f) :
    LineMatches g line p ↔ f.isMatch g p = true := by
  simp [LineMatches, parsed]

end FilterPattern

namespace PathFilter

open FilterPattern

/-- A line and the path that it is held against. -/
abbrev HeldLine := String × Path

section

variable (g : Glob.Dialect)

/-- If some line matches, the last one that does has an exclamation mark. -/
def LastTakesIn (lines : List HeldLine) : Prop :=
  ∀ before line p after, lines = before ++ (line, p) :: after → LineMatches g line p →
    (∀ other ∈ after, ¬LineMatches g other.1 other.2) → IsMarked line

/-- Whether a line without the white space around it counts: it is neither empty nor a comment, and
a pattern. -/
def counts (line : String) : Bool :=
  line ≠ "" && line.toList.head? ≠ some '#' && (parseWith g.compile line).isOk

def trimmed (line : List Char) : String :=
  String.ofList (Text.trimBoth Text.isBlank line)

/-- The lines of an ignore file that count, without the white space around them. -/
def usableLines (text : String) : List String :=
  ((Text.splitLines text.toList).map trimmed).filter (counts g)

/-- What the ignore file in a directory, if there is one, holds against a path below. -/
def linesIn (files : FileAccess) (name : String) (p dir : Path) : List HeldLine :=
  match files.isFile (dir.join name), files.read (dir.join name), p.relativeTo dir with
  | true, .ok text, some relative => (usableLines g text).map (·, relative)
  | _, _, _ => []

/-- What the ignore files around a path hold against it, the nearest file's lines last. -/
def linesAround (files : FileAccess) (name : String) (p : Path) : List HeldLine :=
  p.directories.reverse.flatMap (linesIn g files name p)

/-- A candidate is what a held line is read as. -/
def IsReadAs (held : HeldLine) (candidate : Candidate) : Prop :=
  parseWith g.compile held.1 = .ok candidate.1 ∧ held.2 = candidate.2

end

variable {g : Glob.Dialect} {lines : List HeldLine} {candidates : List Candidate} {held : HeldLine}
  {candidate : Candidate}

theorem verdict_cons (candidate : Candidate) (candidates : List Candidate) :
    verdict g (candidate :: candidates) = (verdict g candidates).or
      (if candidate.1.isMatch g candidate.2 = true then some candidate.1.reincludes else none) := by
  simp only [verdict, List.reverse_cons, List.find?_append, Option.map_or]
  by_cases matching : candidate.1.isMatch g candidate.2 = true <;> simp [matching]

theorem IsReadAs.lineMatches_iff (read : IsReadAs g held candidate) :
    LineMatches g held.1 held.2 ↔ candidate.1.isMatch g candidate.2 = true := by
  rw [FilterPattern.lineMatches_iff read.1, read.2]

theorem verdict_eq_none_iff (read : List.Forall₂ (IsReadAs g) lines candidates) :
    verdict g candidates = none ↔ ∀ held ∈ lines, ¬LineMatches g held.1 held.2 := by
  induction read with
  | nil => simp [verdict]
  | cons first rest ih =>
    rw [verdict_cons, Option.or_eq_none_iff, ih, List.forall_mem_cons, first.lineMatches_iff,
      and_comm]
    simp

theorem lastTakesIn_nil : LastTakesIn g [] := by
  intro before line p after parts
  simp at parts

theorem lastTakesIn_cons : LastTakesIn g (held :: lines) ↔ LastTakesIn g lines ∧
    ((∀ other ∈ lines, ¬LineMatches g other.1 other.2) → LineMatches g held.1 held.2 →
      IsMarked held.1) := by
  constructor
  · intro last
    refine ⟨fun before line p after parts => ?_, fun further matching => ?_⟩
    · exact last (held :: before) line p after (by rw [parts, List.cons_append])
    · exact last [] held.1 held.2 lines rfl matching further
  · rintro ⟨last, alone⟩ before line p after parts matching further
    cases before with
    | nil =>
      obtain ⟨rfl, rfl⟩ := List.cons.inj parts
      exact alone further matching
    | cons other before =>
      obtain ⟨rfl, rfl⟩ := List.cons.inj parts
      exact last before line p after rfl matching further

/-- What the last match says is what the lines say that the candidates were read from. -/
theorem lastTakesIn_iff (read : List.Forall₂ (IsReadAs g) lines candidates) :
    LastTakesIn g lines ↔ verdict g candidates ≠ some false := by
  induction read with
  | nil => simp [lastTakesIn_nil, verdict]
  | @cons held candidate lines candidates first rest ih =>
    rw [lastTakesIn_cons, ih, ← verdict_eq_none_iff rest, first.lineMatches_iff,
      ← reincludes_iff first.1, verdict_cons]
    cases verdict g candidates with
    | some decided => simp
    | none => by_cases matching : candidate.1.isMatch g candidate.2 = true <;> simp [matching]

theorem parse_of_parsePatternWith {written : String} {pattern : FilterPattern}
    (read : parsePatternWith g.compile written = .ok pattern) :
    parseWith g.compile written = .ok pattern := by
  rw [parsePatternWith] at read
  cases parsed : parseWith g.compile written with
  | error fault =>
    rw [parsed] at read
    cases read
  | ok f =>
    rw [parsed] at read
    cases read
    rfl

theorem forall₂_of_ofPatternsWith {patterns : List String} {ignoreName : Option String}
    {f : PathFilter} (built : ofPatternsWith g.compile patterns ignoreName = .ok f) (p : Path) :
    f.ignoreName = ignoreName ∧
      List.Forall₂ (IsReadAs g) (patterns.map (·, p)) (f.patterns.map (·, p)) := by
  rw [ofPatternsWith] at built
  cases read : patterns.mapM (parsePatternWith g.compile) with
  | error e =>
    rw [read] at built
    cases built
  | ok found =>
    rw [read] at built
    cases built
    rw [List.forall₂_map_left_iff, List.forall₂_map_right_iff]
    exact ⟨rfl, (forall₂_of_mapM read).imp fun line pattern parsed =>
      ⟨parse_of_parsePatternWith parsed, rfl⟩⟩

theorem exists_parse_of_counts {line : String} (usable : counts g line = true) :
    ∃ f, parseWith g.compile line = .ok f := by
  rw [counts, Bool.and_eq_true] at usable
  cases parsed : parseWith g.compile line with
  | ok f => exact ⟨f, rfl⟩
  | error fault =>
    rw [parsed] at usable
    cases usable.2

theorem patternOn?_eq_some_iff {line : List Char} {f : FilterPattern} :
    patternOn? g line = some f ↔
      counts g (trimmed line) = true ∧ parseWith g.compile (trimmed line) = .ok f := by
  have parsed (result : Except Glob.Fault FilterPattern) :
      result.toOption = some f ↔ result.isOk = true ∧ result = .ok f := by
    cases result <;> simp [Except.toOption, Except.isOk, Except.toBool]
  rw [patternOn?, trimmed]
  split <;> simp_all [counts, List.head?_eq_some_iff]

theorem forall₂_usableLines (text : String) (p : Path) :
    List.Forall₂ (IsReadAs g) ((usableLines g text).map (·, p))
      ((ignorePatterns g text).map (·, p)) := by
  rw [List.forall₂_map_left_iff, List.forall₂_map_right_iff, usableLines, ignorePatterns]
  induction Text.splitLines text.toList with
  | nil => exact .nil
  | cons line lines ih =>
    rw [List.map_cons, List.filter_cons, List.filterMap_cons]
    cases on : patternOn? g line with
    | some f =>
      obtain ⟨usable, parsed⟩ := patternOn?_eq_some_iff.1 on
      rw [if_pos usable]
      exact .cons ⟨parsed, rfl⟩ ih
    | none =>
      have unusable : ¬counts g (trimmed line) = true := by
        intro usable
        obtain ⟨f, parsed⟩ := exists_parse_of_counts usable
        rw [patternOn?_eq_some_iff.2 ⟨usable, parsed⟩] at on
        cases on
      rw [if_neg unusable]
      exact ih

/-- Each ignore file around the path that is there can be read. -/
def AllReadable (files : FileAccess) (name : String) (p : Path) : Prop :=
  ∀ dir ∈ p.directories, files.isFile (dir.join name) = true →
    ∃ text, files.read (dir.join name) = .ok text

variable {files : FileAccess} {name : String} {p dir : Path}

theorem exists_ignoreCandidates (readable : AllReadable files name p)
    (member : dir ∈ p.directories) :
    ∃ found, ignoreCandidates g files name p dir = .ok found ∧
      List.Forall₂ (IsReadAs g) (linesIn g files name p dir) found := by
  rw [ignoreCandidates, linesIn]
  by_cases present : files.isFile (dir.join name) = true
  · obtain ⟨text, contents⟩ := readable dir member present
    obtain ⟨relative, seen, -⟩ := Path.exists_relativeTo member
    simp only [present, contents, seen]
    exact ⟨_, rfl, forall₂_usableLines text relative⟩
  · simp only [eq_false_of_ne_true present]
    exact ⟨[], rfl, .nil⟩

/-- What an ignore file holds against a path it holds against all of it that lies below the file's
directory. -/
theorem relativeTo_of_mem_ignoreCandidates (member : dir ∈ p.directories) {found : List Candidate}
    (read : ignoreCandidates g files name p dir = .ok found) (mem : candidate ∈ found) :
    p.relativeTo dir = some candidate.2 ∧
      p.components = dir.components ++ candidate.2.components := by
  obtain ⟨relative, seen, parts⟩ := Path.exists_relativeTo member
  simp only [ignoreCandidates, seen] at read
  by_cases present : files.isFile (dir.join name) = true
  · cases contents : files.read (dir.join name) with
    | ok text =>
      simp only [present, contents, Except.ok.injEq] at read
      subst read
      obtain ⟨pattern, -, rfl⟩ := List.mem_map.1 mem
      exact ⟨seen, parts⟩
    | error fault => simp [present, contents] at read
  · simp only [eq_false_of_ne_true present, Except.ok.injEq] at read
    subst read
    cases mem

theorem exists_mapM_ignoreCandidates (readable : AllReadable files name p) (dirs : List Path)
    (around : ∀ dir ∈ dirs, dir ∈ p.directories) :
    ∃ found, dirs.mapM (ignoreCandidates g files name p) = .ok found ∧
      List.Forall₂ (IsReadAs g) (dirs.flatMap (linesIn g files name p)) found.flatten := by
  induction dirs with
  | nil => exact ⟨[], rfl, .nil⟩
  | cons dir dirs ih =>
    rw [List.forall_mem_cons] at around
    obtain ⟨here, read, lines⟩ := exists_ignoreCandidates readable around.1
    obtain ⟨further, others, behind⟩ := ih around.2
    refine ⟨here :: further, ?_, ?_⟩
    · rw [List.mapM_cons, read]
      change (dirs.mapM (ignoreCandidates g files name p) >>= fun rest => pure (here :: rest)) = _
      rw [others]
      rfl
    · rw [List.flatMap_cons, List.flatten_cons]
      exact List.rel_append lines behind

theorem exists_isIgnored (readable : AllReadable files name p) :
    ∃ ignored, isIgnored g files name p = .ok ignored ∧
      (ignored = false ↔ LastTakesIn g (linesAround g files name p)) := by
  obtain ⟨found, read, lines⟩ := exists_mapM_ignoreCandidates readable
    p.directories.reverse (by simp)
  refine ⟨decide (verdict g found.flatten = some false), ?_, ?_⟩
  · rw [isIgnored, read]
    rfl
  · rw [linesAround, lastTakesIn_iff lines, decide_eq_false_iff_not]

/-- Whatever the patterns mean, the configured ones have the first word: what they leave out no
ignore file takes in again. Of both lists the last line that matches decides; and the ignore files
are those in all the directories of the path, each held against all of the path that lies below. -/
theorem last_match_decides {patterns : List String} {ignoreName : Option String} {f : PathFilter}
    (built : ofPatternsWith g.compile patterns ignoreName = .ok f) (files : FileAccess) (p : Path)
    (readable : ∀ name ∈ ignoreName, AllReadable files name p) :
    (∃ isIn, f.shouldAnalyzeWith g files p = .ok isIn ∧
      (isIn = true ↔ LastTakesIn g (patterns.map (·, p)) ∧
        ∀ name ∈ ignoreName, LastTakesIn g (linesAround g files name p))) ∧
    p.directories.map Path.components =
      (p.components.inits.dropLast.reverse.filter fun front => p.anchor ≠ .root || front ≠ []) ∧
    ∀ dir ∈ p.directories, ∃ relative, p.relativeTo dir = some relative ∧
      p.components = dir.components ++ relative.components := by
  refine ⟨?_, p.map_components_directories, fun dir member => Path.exists_relativeTo member⟩
  obtain ⟨named, configured⟩ := forall₂_of_ofPatternsWith built p
  rw [shouldAnalyzeWith, lastTakesIn_iff configured, named]
  by_cases out : verdict g (f.patterns.map (·, p)) = some false
  · exact ⟨false, by rw [if_pos out], by simp [out]⟩
  · rw [if_neg out]
    cases ignoreName with
    | none => exact ⟨true, rfl, by simp [out]⟩
    | some name =>
      obtain ⟨ignored, decided, lines⟩ := exists_isIgnored (g := g) (readable name rfl)
      refine ⟨!ignored, by simp only [decided]; rfl, ?_⟩
      simp [out, ← lines]

/-- The outer file leaves out what the inner one takes in again. -/
def nestedIgnores : FileAccess where
  isFile p := p.text ∈ [".stacksignore", "src/.stacksignore"]
  read p := .ok <|
    if p.text = ".stacksignore" then "# generated\n*.tmp.cs\n" else " !Keep.tmp.cs \n[\n"

/-- Of two files that the outer ignore file leaves out the inner one takes in one again. -/
theorem last_match_decides_keep :
    (∀ p, AllReadable nestedIgnores ".stacksignore" p) ∧
    ∃ f, ofPatternsWith Glob.Dialect.standard.compile ["**/bin/**"] (some ".stacksignore") = .ok f ∧
      (f.shouldAnalyzeWith .standard nestedIgnores ⟨"src/Keep.tmp.cs"⟩ = .ok true ∧
        LastTakesIn .standard
          [("*.tmp.cs", ⟨"src/Keep.tmp.cs"⟩), ("!Keep.tmp.cs", ⟨"Keep.tmp.cs"⟩)]) ∧
      f.shouldAnalyzeWith .standard nestedIgnores ⟨"src/Drop.tmp.cs"⟩ = .ok false ∧
        ¬LastTakesIn .standard
          [("*.tmp.cs", ⟨"src/Drop.tmp.cs"⟩), ("!Keep.tmp.cs", ⟨"Drop.tmp.cs"⟩)] := by
  have readable (p : Path) : AllReadable nestedIgnores ".stacksignore" p := fun _ _ _ => ⟨_, rfl⟩
  let f : PathFilter := ⟨[⟨[.components, .literal 'b', .literal 'i', .literal 'n', .literal '/',
    .components], true, false, false, "**/bin/**"⟩], some ".stacksignore"⟩
  have built : ofPatternsWith Glob.Dialect.standard.compile ["**/bin/**"] (some ".stacksignore")
      = .ok f := by
    decide +kernel
  have kept : f.shouldAnalyzeWith .standard nestedIgnores ⟨"src/Keep.tmp.cs"⟩ = .ok true := by
    decide +kernel
  have lines : linesAround .standard nestedIgnores ".stacksignore" ⟨"src/Keep.tmp.cs"⟩ =
      [("*.tmp.cs", ⟨"src/Keep.tmp.cs"⟩), ("!Keep.tmp.cs", ⟨"Keep.tmp.cs"⟩)] := by
    decide +kernel
  have dropped : f.shouldAnalyzeWith .standard nestedIgnores ⟨"src/Drop.tmp.cs"⟩ = .ok false := by
    decide +kernel
  have lines' : linesAround .standard nestedIgnores ".stacksignore" ⟨"src/Drop.tmp.cs"⟩ =
      [("*.tmp.cs", ⟨"src/Drop.tmp.cs"⟩), ("!Keep.tmp.cs", ⟨"Drop.tmp.cs"⟩)] := by
    decide +kernel
  have decides (p : Path) := (last_match_decides built nestedIgnores p fun name named => by
    obtain rfl := Option.some.inj named
    exact readable p).1
  refine ⟨readable, f, built, ⟨kept, ?_⟩, dropped, fun taken => ?_⟩
  · obtain ⟨isIn, decided, iff⟩ := decides ⟨"src/Keep.tmp.cs"⟩
    obtain rfl : isIn = true := Except.ok.inj (decided.symm.trans kept)
    exact lines ▸ (iff.1 rfl).2 _ rfl
  · obtain ⟨isIn, decided, iff⟩ := decides ⟨"src/Drop.tmp.cs"⟩
    obtain rfl : isIn = false := Except.ok.inj (decided.symm.trans dropped)
    refine absurd (iff.2 ⟨?_, fun name named => ?_⟩) Bool.false_ne_true
    · rw [lastTakesIn_iff (forall₂_of_ofPatternsWith built _).2]
      decide +kernel
    · obtain rfl := Option.some.inj named
      exact lines'.symm ▸ taken

end PathFilter

end ConventionLint
