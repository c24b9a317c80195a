import ConventionLint.Proofs.Workspace.Decision
import Mathlib.Data.List.TakeWhile

/-!
# What a pattern is held against

A slash with other characters on both sides anchors a pattern: it is held against the whole path, or
that of a directory around it. Slashes at the ends are taken off before that is decided, so a slash
in front anchors nothing: such a pattern is held against names, wherever they stand.
-/
namespace ConventionLint

namespace Text

variable {p : Char → Bool} {l behind : List Char} {a : Char}

/-- What stands in front of an element that could be dropped has one that could not. -/
theorem exists_dropWhile_eq_iff (droppable : p a = true) :
    (∃ front, l.dropWhile p = front ++ a :: behind) ↔
      ∃ front, l = front ++ a :: behind ∧ ∃ c ∈ front, p c = false := by
  constructor
  · rintro ⟨front, parts⟩
    have stop := List.head?_dropWhile_not p l
    refine ⟨l.takeWhile p ++ front, ?_, ?_⟩
    · rw [List.append_assoc, ← parts, List.takeWhile_append_dropWhile]
    · cases front with
      | nil => simp [parts, droppable] at stop
      | cons c front => exact ⟨c, by simp, by simpa [parts] using stop⟩
  · rintro ⟨front, rfl, c, member, stop⟩
    have some : (front.dropWhile p).isEmpty = false := by
      rw [List.isEmpty_eq_false_iff, Ne, List.dropWhile_eq_nil_iff]
      exact fun all => by simp [all c member] at stop
    exact ⟨front.dropWhile p, by simp [List.dropWhile_append, some]⟩

theorem mem_trimEnd_iff (droppable : p a = true) : a ∈ trimEnd p l ↔
    ∃ front behind, l = front ++ a :: behind ∧ ∃ c ∈ behind, p c = false := by
  have reversed (front behind : List Char) :
      l = front ++ a :: behind ↔ l.reverse = behind.reverse ++ a :: front.reverse := by
    rw [← List.reverse_inj, List.reverse_append, List.reverse_cons, List.append_assoc,
      List.singleton_append]
  rw [trimEnd, List.mem_reverse, List.mem_iff_append]
  constructor
  · rintro ⟨before, after, parts⟩
    obtain ⟨front, whole, c, member, stop⟩ := (exists_dropWhile_eq_iff droppable).1 ⟨before, parts⟩
    exact ⟨after.reverse, front.reverse, (reversed _ _).2 (by simpa using whole), c,
      by simpa using member, stop⟩
  · rintro ⟨front, behind, parts, c, member, stop⟩
    obtain ⟨before, parts⟩ := (exists_dropWhile_eq_iff droppable).2
      ⟨behind.reverse, (reversed front behind).1 parts, c, by simpa using member, stop⟩
    exact ⟨before, front.reverse, parts⟩

end Text

namespace FilterPattern

variable {g : Glob.Dialect} {line : String} {f : FilterPattern} {p : Path}

/-- A slash with other characters both before and behind it. -/
def HasInnerSlash (line : String) : Prop :=
  ∃ front behind, body line = front ++ '/' :: behind ∧ (∃ c ∈ front, c ≠ '/') ∧
    ∃ c ∈ behind, c ≠ '/'

theorem slash_mem_inner_iff : '/' ∈ inner line ↔ HasInnerSlash line := by
  rw [inner, Text.mem_trimEnd_iff (by simp)]
  constructor
  · rintro ⟨front, behind, parts, stop⟩
    obtain ⟨front, whole, before⟩ := (Text.exists_dropWhile_eq_iff (by simp)).1 ⟨front, parts⟩
    exact ⟨front, behind, whole, by simpa using before, by simpa using stop⟩
  · rintro ⟨front, behind, whole, before, stop⟩
    obtain ⟨front, parts⟩ := (Text.exists_dropWhile_eq_iff (p := (· = '/')) (by simp)).2
      ⟨front, whole, by simpa using before⟩
    exact ⟨front, behind, parts, by simpa using stop⟩

theorem holds_iff_of_whole (whole : f.whole = true) :
    f.holds g p = true ↔ g.isMatch f.tokens p.text.toList = true := by
  rw [holds, if_pos whole]

theorem holds_iff_of_not_whole (named : f.whole = false) : f.holds g p = true ↔
    ∃ name, p.fileName = some name ∧ g.isMatch f.tokens name.toList = true := by
  rw [holds, if_neg (by simp [named]), Option.any_eq_true]

theorem isMatch_iff_of_whole (whole : f.whole = true) : f.isMatch g p = true ↔
    if f.directory then ∃ dir ∈ p.directories, g.isMatch f.tokens dir.text.toList = true
    else g.isMatch f.tokens p.text.toList = true := by
  by_cases directory : f.directory = true
  · rw [isMatch, if_pos directory, if_pos directory, List.any_eq_true]
    simp only [holds_iff_of_whole whole]
  · rw [isMatch, if_neg directory, if_neg directory, holds_iff_of_whole whole]

theorem isMatch_iff_of_not_whole (named : f.whole = false) : f.isMatch g p = true ↔
    ∃ name, g.isMatch f.tokens name.toList = true ∧
      if f.directory then .name name ∈ p.components.dropLast
      else p.components.getLast? = some (.name name) := by
  by_cases directory : f.directory = true
  · simp only [isMatch, if_pos directory, List.any_eq_true, holds_iff_of_not_whole named]
    rw [Path.exists_directory_named_iff]
    simp only [and_comm]
  · simp only [isMatch, if_neg directory, holds_iff_of_not_whole named,
      Path.fileName_eq_some_iff, and_comm]

/-- A name may stand in any directory. -/
theorem exists_isMatch_deeper (named : f.whole = false) (file : f.directory = false)
    (matching : f.isMatch g p = true) :
    ∃ q : Path, q.components.length = 2 ∧ f.isMatch g q = true := by
  rw [isMatch_iff_of_not_whole named, file] at matching
  obtain ⟨name, holds, last⟩ := matching
  obtain ⟨q, components⟩ := Path.exists_deeper last
  refine ⟨q, by rw [components]; rfl, ?_⟩
  rw [isMatch_iff_of_not_whole named, file]
  exact ⟨name, holds, by rw [components]; rfl⟩

/-- Whatever patterns mean, a slash with other characters on both sides anchors one: it is held
against whole paths, those of the directories around if it ends in a slash. No other slash does:
without such a one, a pattern is held against the name alone, or those of the directories around, at
any depth. In an ignore file the path is the one that the file's directory sees. -/
theorem inner_slash_anchors (parsed : parseWith g.compile line = .ok f) :
    g.compile (String.ofList (inner line)) = .ok f.tokens ∧
    (f.directory = true ↔ (body line).getLast? = some '/') ∧
    (HasInnerSlash line → ∀ p, f.isMatch g p = true ↔
      if f.directory then ∃ dir ∈ p.directories, g.isMatch f.tokens dir.text.toList = true
      else g.isMatch f.tokens p.text.toList = true) ∧
    (¬HasInnerSlash line →
      (∀ p, f.isMatch g p = true ↔ ∃ name, g.isMatch f.tokens name.toList = true ∧
        if f.directory then .name name ∈ p.components.dropLast
        else p.components.getLast? = some (.name name)) ∧
      (f.directory = false → ∀ p, f.isMatch g p = true →
        ∃ q : Path, q.components.length = 2 ∧ f.isMatch g q = true)) ∧
    ∀ files name, ∀ p : Path, ∀ dir ∈ p.directories, ∀ found,
      PathFilter.ignoreCandidates g files name p dir = .ok found → ∀ held, (f, held) ∈ found →
        p.relativeTo dir = some held ∧ p.components = dir.components ++ held.components := by
  obtain ⟨tokens, compiled, made⟩ := parseWith_eq_ok_iff.1 parsed
  have whole : f.whole = true ↔ HasInnerSlash line := by
    simp [made, ← slash_mem_inner_iff]
  refine ⟨by rw [made, compiled], by simp [made], fun anchored p => ?_, fun free => ?_,
    fun files name p dir member found read held mem => ?_⟩
  · exact isMatch_iff_of_whole (whole.2 anchored)
  · have named : f.whole = false := eq_false_of_ne_true (mt whole.1 free)
    exact ⟨fun p => isMatch_iff_of_not_whole named,
      fun file p matching => exists_isMatch_deeper named file matching⟩
  · exact PathFilter.relativeTo_of_mem_ignoreCandidates member read mem

/-- The pattern of a name, with a slash in front. -/
def slashBin : FilterPattern :=
  ⟨[.literal 'b', .literal 'i', .literal 'n'], false, false, false, "/bin"⟩

def slashBinSlash : FilterPattern :=
  ⟨[.literal 'b', .literal 'i', .literal 'n'], false, true, false, "/bin/"⟩

/-- Neither does a slash in front keep a name to the paths that consist of it, nor do slashes around
it keep it to the first component. -/
theorem leading_slash_passed_over :
    ¬(∀ (name : String) (f : FilterPattern) (p : Path), '/' ∉ name.toList →
      parseWith Glob.compile ("/" ++ name) = .ok f → f.isMatch .standard p = true →
        p.components.length < 2) ∧
    ¬(∀ (name : String) (tokens : List Glob.Token) (f : FilterPattern) (p : Path),
      '/' ∉ name.toList → Glob.compile name = .ok tokens →
        parseWith Glob.compile ("/" ++ name ++ "/") = .ok f → f.isMatch .standard p = true →
          ∃ first, p.components.head? = some (.name first) ∧
            Glob.isMatch tokens first.toList = true) := by
  constructor
  · intro claim
    have short := claim "bin" slashBin ⟨"src/bin"⟩ (by decide) (by decide +kernel)
      (by decide +kernel)
    revert short
    decide +kernel
  · intro claim
    obtain ⟨first, head, holds⟩ := claim "bin" slashBin.tokens slashBinSlash ⟨"src/bin/a.cs"⟩
      (by decide) (by decide +kernel) (by decide +kernel) (by decide +kernel)
    have src : (Path.mk "src/bin/a.cs").components.head? = some (.name "src") := by decide +kernel
    obtain rfl : "src" = first := by simpa [src] using head
    revert holds
    decide +kernel

theorem inner_slash_anchors_bin :
    parseWith Glob.compile "/bin" = .ok slashBin ∧ ¬HasInnerSlash "/bin" ∧
      ∀ p, slashBin.isMatch .standard p = true ↔ ∃ name,
        Glob.isMatch slashBin.tokens name.toList = true ∧
          p.components.getLast? = some (.name name) := by
  have parsed : parseWith Glob.compile "/bin" = .ok slashBin := by decide +kernel
  have free : ¬HasInnerSlash "/bin" := by
    rw [← slash_mem_inner_iff]
    decide +kernel
  exact ⟨parsed, free, ((inner_slash_anchors (g := .standard) parsed).2.2.2.1 free).1⟩

end FilterPattern

end ConventionLint
