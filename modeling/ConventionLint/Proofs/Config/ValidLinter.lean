import ConventionLint.Linter
import ConventionLint.Proofs.Analysis.Visit
import ConventionLint.Proofs.Binding.AliasTermination
import ConventionLint.Proofs.Config.Validity
import ConventionLint.Proofs.Lists
import ConventionLint.Proofs.Report.Order
import Mathlib

/-!
# Linters of valid configurations

What is checked when a configuration is validated is checked again when its rules are registered and
when its patterns are compiled for the filter. The checks agree, whatever the syntax of patterns: a
valid configuration has a linter, and that linter fails on given sources only for the sake of one of
them. It does not always come to an end: an alias that reaches itself keeps it from reporting.
-/
namespace ConventionLint

section

variable {α : Type}

/-- An element with the property `p` that comes before all others with it: in the order `le`, and
where that ties, in the list. -/
def ComesFirst (le : α → α → Bool) (p : α → Bool) (l : List α) (a : α) : Prop :=
  p a = true ∧ ∃ before after, l = before ++ a :: after ∧
    (∀ b ∈ before, p b = true → le b a = false) ∧ ∀ b ∈ after, p b = true → le a b = true

variable {le : α → α → Bool} {p : α → Bool} {l : List α} {a b : α}

theorem ComesFirst.eq (first : ComesFirst le p l a) (first' : ComesFirst le p l b) : a = b := by
  obtain ⟨ha, before, after, rfl, below, above⟩ := first
  obtain ⟨hb, before', after', same, below', above'⟩ := first'
  -- unless the two stand at one place, the one in front both is and is not at most the other
  rcases List.append_eq_append_iff.1 same with ⟨between, rfl, rest⟩ | ⟨between, rfl, rest⟩
  · cases between with
    | nil => exact (List.cons.inj rest).1
    | cons x between =>
      obtain ⟨rfl, rfl⟩ := List.cons.inj rest
      have atMost : le a b = true := above b (by simp) hb
      have beyond : le a b = false := below' a (by simp) ha
      simp [atMost] at beyond
  · cases between with
    | nil => exact (List.cons.inj rest).1.symm
    | cons x between =>
      obtain ⟨rfl, rfl⟩ := List.cons.inj rest
      have atMost : le b a = true := above' a (by simp) ha
      have beyond : le b a = false := below b (by simp) hb
      simp [atMost] at beyond

theorem ComesFirst.cons_of_le {x : α} (hx : p x = true)
    (above : ∀ b ∈ l, p b = true → le x b = true) : ComesFirst le p (x :: l) x :=
  ⟨hx, [], l, rfl, nofun, above⟩

theorem ComesFirst.cons {x : α} (behind : p x = true → le x a = false)
    (first : ComesFirst le p l a) : ComesFirst le p (x :: l) a := by
  obtain ⟨ha, before, after, rfl, below, above⟩ := first
  exact ⟨ha, x :: before, after, rfl, List.forall_mem_cons.2 ⟨behind, below⟩, above⟩

/-- Sorting brings the element that comes first before the others. -/
theorem comesFirst_of_find?_mergeSort
    (trans : ∀ a b c, le a b = true → le b c = true → le a c = true)
    (total : ∀ a b, (le a b || le b a) = true) (found : (l.mergeSort le).find? p = some a) :
    ComesFirst le p l a := by
  induction l generalizing a with
  | nil => simp at found
  | cons x l ih =>
    obtain ⟨before, behind, whole, rest, below⟩ := List.mergeSort_cons trans total x l
    rw [whole, List.find?_append] at found
    rw [rest, List.find?_append] at ih
    cases early : before.find? p with
    | some b =>
      obtain rfl : b = a := by simpa [early] using found
      have atMost : le x b = false := by simpa using below b (List.mem_of_find?_eq_some early)
      exact (ih (by simp [early])).cons fun _ => atMost
    | none =>
      rw [early, Option.none_or] at found ih
      by_cases hx : p x = true
      · obtain rfl : x = a := by simpa [hx] using found
        refine ComesFirst.cons_of_le hx fun b member hb => ?_
        have sorted := List.pairwise_mergeSort trans total (x :: l)
        rw [whole, List.pairwise_append, List.pairwise_cons] at sorted
        have placed : b ∈ before ++ behind := rest ▸ List.mem_mergeSort.2 member
        rcases List.mem_append.1 placed with front | back
        · exact absurd hb (List.find?_eq_none.1 early b front)
        · exact sorted.2.1.1 b back
      · rw [List.find?_cons_of_neg hx] at found
        exact (ih found).cons fun holds => absurd holds hx

theorem find?_mergeSort_eq_some_iff
    (trans : ∀ a b c, le a b = true → le b c = true → le a c = true)
    (total : ∀ a b, (le a b || le b a) = true) :
    (l.mergeSort le).find? p = some a ↔ ComesFirst le p l a := by
  refine ⟨comesFirst_of_find?_mergeSort trans total, fun first => ?_⟩
  have member : a ∈ l.mergeSort le := by
    obtain ⟨-, before, after, rfl, -⟩ := first
    simp [List.mem_mergeSort]
  cases found : (l.mergeSort le).find? p with
  | none => exact absurd first.1 (List.find?_eq_none.1 found a member)
  | some b => rw [(comesFirst_of_find?_mergeSort trans total found).eq first]

end

variable {compile : Glob.Compiler} {c : Config}

section

variable {written : String} {body : List Char}

theorem FilterPattern.splitMark_of_marked (marked : written.toList = '!' :: body) :
    splitMark written = (true, body) := by
  simp only [splitMark, marked]

theorem FilterPattern.splitMark_of_unmarked (unmarked : ∀ body, written.toList ≠ '!' :: body) :
    splitMark written = (false, written.toList) := by
  rw [splitMark]
  split
  next marked => exact absurd marked (unmarked _)
  next => rfl

theorem Config.patternText_of_marked (marked : written.toList = '!' :: body) :
    patternText written = String.ofList (Text.trimBoth (· = '/') body) := by
  simp only [patternText, marked]

theorem Config.patternText_of_unmarked (unmarked : ∀ body, written.toList ≠ '!' :: body) :
    patternText written = String.ofList (Text.trimBoth (· = '/') written.toList) := by
  rw [patternText]
  split
  next marked => exact absurd marked (unmarked _)
  next => rfl

end

/-- A filter takes the mark and the slashes off a pattern by steps of its own, and is left with the
text that was checked. -/
theorem FilterPattern.inner_eq_patternText (written : String) :
    String.ofList (Text.trimEnd (· = '/') ((splitMark written).2.dropWhile (· = '/'))) =
      Config.patternText written := by
  by_cases marked : ∃ body, written.toList = '!' :: body
  · obtain ⟨body, marked⟩ := marked
    rw [splitMark_of_marked marked, Config.patternText_of_marked marked]
    rfl
  · rw [not_exists] at marked
    rw [splitMark_of_unmarked marked, Config.patternText_of_unmarked marked]
    rfl

theorem FilterPattern.exists_parseWith {written : String} {tokens : List Glob.Token}
    (compiles : compile (Config.patternText written) = .ok tokens) :
    ∃ f, parseWith compile written = .ok f := by
  rw [← inner_eq_patternText] at compiles
  simp only [parseWith, compiles]
  exact ⟨_, rfl⟩

theorem Config.IsValid.ruleSet_eq (valid : c.IsValid compile) :
    c.ruleSet = .ok ⟨Rule.standard.filterMap c.register, c.reportInternalErrors⟩ := by
  rw [ruleSet, forM_eq_ok_iff.2]
  · rfl
  · exact fun rule member => if_pos (valid.rules rule member)

theorem Config.IsValid.exists_ruleSet (valid : c.IsValid compile) :
    ∃ rules, c.ruleSet = .ok rules :=
  ⟨_, valid.ruleSet_eq⟩

namespace Source

theorem le_trans (a b c : Source) (first : a.le b = true) (second : b.le c = true) :
    a.le c = true := by
  rw [le, Path.le] at first second ⊢
  exact Std.TransCmp.isLE_trans first second

theorem le_total (a b : Source) : (a.le b || b.le a) = true := by
  have swapped : compare b.path a.path = (compare a.path b.path).swap := Std.OrientedCmp.eq_swap
  rw [le, le, Path.le, Path.le, swapped]
  cases compare a.path b.path <;> rfl

theorem exists_scan_iff {s : Source} :
    (∃ file, s.scan = .ok file) ↔ ∃ file, SourceFile.scan s.path s.text = .ok file := by
  rw [scan]
  cases SourceFile.scan s.path s.text with
  | error fault => exact ⟨nofun, nofun⟩
  | ok file => exact ⟨fun _ => ⟨file, rfl⟩, fun _ => ⟨file, rfl⟩⟩

theorem scan_eq_error_iff {s : Source} {e : LintError} : s.scan = .error e ↔
    ∃ fault, SourceFile.scan s.path s.text = .error fault ∧ e = .source s.path fault := by
  rw [scan]
  cases SourceFile.scan s.path s.text with
  | ok file => exact ⟨nofun, nofun⟩
  | error fault =>
    constructor
    · intro same
      cases same
      exact ⟨fault, rfl, rfl⟩
    · rintro ⟨_, same, rfl⟩
      cases same
      rfl

theorem exists_scanAll_iff {sources : List Source} : (∃ files, scanAll sources = .ok files) ↔
    ∀ s ∈ sources, ∃ file, SourceFile.scan s.path s.text = .ok file := by
  simp only [scanAll, exists_mapM_iff, List.mem_mergeSort, exists_scan_iff]

theorem scanAll_eq_error_iff {sources : List Source} {e : LintError} : scanAll sources = .error e ↔
    ∃ s fault, ComesFirst Source.le (fails Source.scan) sources s ∧
      SourceFile.scan s.path s.text = .error fault ∧ e = .source s.path fault := by
  simp only [scanAll, mapM_eq_error_iff, find?_mergeSort_eq_some_iff le_trans le_total,
    scan_eq_error_iff, exists_and_left]

theorem acyclic_of_scanAll {sources : List Source} {files : List SourceFile}
    (scanned : scanAll sources = .ok files) (acyclic : ∀ s ∈ sources, ∀ file,
      SourceFile.scan s.path s.text = .ok file → file.Acyclic) :
    ∀ file ∈ files, file.Acyclic := by
  intro file member
  obtain ⟨s, present, read⟩ := (mem_iff_of_mapM scanned).1 member
  refine acyclic s (List.mem_mergeSort.1 present) file ?_
  rw [scan] at read
  cases found : SourceFile.scan s.path s.text with
  | error fault => simp [found] at read
  | ok file' => simpa [found] using read

end Source

namespace Linter

variable {l : Linter} {sources : List Source}

theorem exists_filterWith (valid : l.config.IsValid compile) :
    ∃ f, l.filterWith compile .standard = .ok f := by
  have parses : ∀ written ∈ l.config.patterns ++ CheckOptions.standard.excludePatterns,
      ∃ f, PathFilter.parsePatternWith compile written = .ok f := by
    intro written member
    rw [CheckOptions.standard, List.append_nil] at member
    obtain ⟨tokens, compiles⟩ := valid.patterns written member
    obtain ⟨f, parsed⟩ := FilterPattern.exists_parseWith compiles
    exact ⟨f, by rw [PathFilter.parsePatternWith, parsed]⟩
  obtain ⟨fs, parsed⟩ := exists_mapM_iff.2 parses
  exact ⟨_, by rw [filterWith, PathFilter.ofPatternsWith, parsed]; rfl⟩

theorem exists_checkCompilation (l : Linter) (c : Compilation) :
    ∃ report, l.checkCompilation c false = .ok report := by
  rw [checkCompilation, exists_bind_pure_iff, Compilation.analyze, Compilation.analyzeIn_eq]
  exact ⟨_, rfl⟩

/-- Where there is a filter, only a faulty source makes a check fail. -/
theorem checkSourcesWith_of_scanAll (filters : ∃ f, l.filterWith compile .standard = .ok f)
    (sources : List Source) :
    (∀ files, Source.scanAll sources = .ok files → ∃ report,
      l.checkSourcesWith compile sources = .ok report) ∧
    ∀ e, Source.scanAll sources = .error e → l.checkSourcesWith compile sources = .error e := by
  obtain ⟨f, built⟩ := filters
  rw [checkSourcesWith, built, Compilation.ofSources]
  constructor
  · intro files scanned
    rw [scanned]
    exact l.exists_checkCompilation (.ofFiles l.config.markers.root files)
  · intro e failed
    rw [failed]
    rfl

/-- Whether a check of given sources comes to an end: it does unless they are scanned and an entry of
a base list is not bound in the end. -/
def CheckEnds (sources : List Source) : Prop :=
  ∀ files, Source.scanAll sources = .ok files → Compilation.BuildEnds files

noncomputable def checkSourcesWith? (compile : Glob.Compiler) (l : Linter)
    (sources : List Source) : Option (Except LintError Report) :=
  open Classical in if CheckEnds sources then some (l.checkSourcesWith compile sources) else none

theorem checkSourcesWith?_eq_some (ends : CheckEnds sources) :
    l.checkSourcesWith? compile sources = some (l.checkSourcesWith compile sources) := by
  rw [checkSourcesWith?, if_pos ends]

theorem checkSourcesWith?_eq_none_iff : l.checkSourcesWith? compile sources = none ↔
    ∃ files, Source.scanAll sources = .ok files ∧
      ∃ g ∈ Binding.groupsOf files, ∃ t ∈ g.basePart.declaration.baseList,
        ¬(Binding.scopeOf (Binding.scopesOf files) g).LoopFree t := by
  have ends : l.checkSourcesWith? compile sources = none ↔ ¬CheckEnds sources := by
    rw [checkSourcesWith?]
    split <;> simp_all
  simp only [ends, CheckEnds, Compilation.BuildEnds, Binding.Scope.acc_iff_loopFree, not_forall,
    exists_prop]

theorem checkSourcesWith?_eq_error_iff {e : LintError}
    (filters : ∃ f, l.filterWith compile .standard = .ok f) :
    l.checkSourcesWith? compile sources = some (.error e) ↔
      Source.scanAll sources = .error e := by
  obtain ⟨reports, fails⟩ := checkSourcesWith_of_scanAll filters sources
  cases scanned : Source.scanAll sources with
  | error fault =>
    have ends : CheckEnds sources := fun files read => absurd (scanned.symm.trans read) nofun
    rw [checkSourcesWith?_eq_some ends, fails fault scanned, Option.some.injEq,
      Except.error.injEq, Except.error.injEq]
  | ok files =>
    obtain ⟨report, checked⟩ := reports files scanned
    rw [checkSourcesWith?, checked]
    split <;> simp

theorem exists_report_iff (filters : ∃ f, l.filterWith compile .standard = .ok f)
    (acyclic : ∀ s ∈ sources, ∀ file,
      SourceFile.scan s.path s.text = .ok file → file.Acyclic) :
    (∃ report, l.checkSourcesWith? compile sources = some (.ok report)) ↔
      ∃ files, Source.scanAll sources = .ok files := by
  obtain ⟨reports, fails⟩ := checkSourcesWith_of_scanAll filters sources
  have ends : CheckEnds sources := fun files scanned => Compilation.buildEnds_of_acyclic
    (Compilation.acyclic_scopeOf (Source.acyclic_of_scanAll scanned acyclic))
  rw [checkSourcesWith?_eq_some ends]
  cases scanned : Source.scanAll sources with
  | error fault => simp [fails fault scanned]
  | ok files =>
    obtain ⟨report, checked⟩ := reports files scanned
    exact ⟨fun _ => ⟨files, rfl⟩, fun _ => ⟨report, congrArg some checked⟩⟩

theorem ofConfigWith_of_check (checked : c.checkWith compile = .ok ()) {rules : RuleSet}
    (registered : c.ruleSet = .ok rules) : ofConfigWith compile c = .ok ⟨c, rules⟩ := by
  rw [ofConfigWith, Config.validatedWith, checked]
  change (c.ruleSet >>= fun rules => pure (⟨c, rules⟩ : Linter)) = .ok ⟨c, rules⟩
  rw [registered]
  rfl

/-- Whatever the syntax of patterns, an invalid configuration has no linter, for the fault that
makes it invalid. A valid one has its rules, a linter and a filter. Its linter goes on for ever on
just those sources that are scanned and where an entry of a base list that counts uses an alias from
which one gets to an alias that reaches itself. Where no alias reaches itself it reports on all lists
of sources but those with a faulty one. Of the faulty sources the first in the order of their paths,
and of those at one path the first in the list, is the whole of the error. -/
theorem ofConfigWith_validity (compile : Glob.Compiler) (c : Config) :
    (∀ fault, c.checkWith compile = .error fault →
      ofConfigWith compile c = .error (.configuration fault)) ∧
    (c.checkWith compile = .ok () → ∃ rules l, c.ruleSet = .ok rules ∧
      ofConfigWith compile c = .ok l ∧ l.config = c ∧ l.rules = rules ∧
      (∃ f, l.filterWith compile .standard = .ok f) ∧
      ∀ sources,
        (l.checkSourcesWith? compile sources = none ↔
          ∃ files, Source.scanAll sources = .ok files ∧
            ∃ g ∈ Binding.groupsOf files, ∃ t ∈ g.basePart.declaration.baseList,
              ¬(Binding.scopeOf (Binding.scopesOf files) g).LoopFree t) ∧
        ((∀ s ∈ sources, ∀ file, SourceFile.scan s.path s.text = .ok file → file.Acyclic) →
          ((∃ report, l.checkSourcesWith? compile sources = some (.ok report)) ↔
            ∀ s ∈ sources, ∃ file, SourceFile.scan s.path s.text = .ok file)) ∧
        ∀ e, l.checkSourcesWith? compile sources = some (.error e) ↔
          ∃ s fault, ComesFirst Source.le (fails Source.scan) sources s ∧
            SourceFile.scan s.path s.text = .error fault ∧ e = .source s.path fault) := by
  constructor
  · intro fault failed
    rw [ofConfigWith, Config.validatedWith, failed]
    rfl
  · intro checked
    have valid : c.IsValid compile := Config.checkWith_eq_ok_iff.1 checked
    obtain ⟨rules, registered⟩ := valid.exists_ruleSet
    have filters := exists_filterWith (l := ⟨c, rules⟩) valid
    refine ⟨rules, ⟨c, rules⟩, registered, ofConfigWith_of_check checked registered, rfl, rfl,
      filters, fun sources => ⟨checkSourcesWith?_eq_none_iff, fun acyclic => ?_, fun e => ?_⟩⟩
    · rw [exists_report_iff filters acyclic, Source.exists_scanAll_iff]
    · rw [checkSourcesWith?_eq_error_iff filters, Source.scanAll_eq_error_iff]

def withPatterns (patterns : List String) : Config :=
  { Config.standard with rules := [("ss001", ⟨false, none⟩)], patterns }

/-- The second and the third are faulty and lie at one path, before the first, faulty as well. -/
def faultySources : List Source :=
  [⟨⟨"b.cs"⟩, "class B;\n/* open"⟩, ⟨⟨"a//x.cs"⟩, "\"a"⟩, ⟨⟨"a/x.cs"⟩, "/*"⟩,
    ⟨⟨"A.cs"⟩, "class A;"⟩]

/-- A class whose base is an alias that its target's argument does not lead back to. -/
def aliasedSource : Source :=
  ⟨⟨"b.cs"⟩, "using A = Box<System.Guid>;\nclass X : A { }"⟩

theorem ofConfigWith_validity_faultySources :
    ofConfig (withPatterns ["**/bin/**", "!/a[/"]) =
        .error (.configuration (.invalidPattern "!/a[/" ⟨.invalidRange, 1⟩)) ∧
      ∃ l, ofConfig (withPatterns ["!/bin//", "///", "!!/*/"]) = .ok l ∧
        l.checkSourcesWith? Glob.compile faultySources =
          some (.error (.source ⟨"a//x.cs"⟩ ⟨.unterminatedString, 1, 3⟩)) ∧
        ∃ report, l.checkSourcesWith? Glob.compile [aliasedSource] = some (.ok report) := by
  have invalid : (withPatterns ["**/bin/**", "!/a[/"]).checkWith Glob.compile =
      .error (.invalidPattern "!/a[/" ⟨.invalidRange, 1⟩) := by decide +kernel
  have valid : (withPatterns ["!/bin//", "///", "!!/*/"]).checkWith Glob.compile = .ok () := by
    decide +kernel
  have scanned : (SourceFile.scan ⟨"a//x.cs"⟩ "\"a" >>= fun _ => pure ()) =
      .error ⟨.unterminatedString, 1, 3⟩ := by decide +kernel
  have faulty := bind_pure_eq_error_iff.1 scanned
  have first : ComesFirst Source.le (fails Source.scan) faultySources ⟨⟨"a//x.cs"⟩, "\"a"⟩ :=
    ⟨by decide +kernel, [⟨⟨"b.cs"⟩, "class B;\n/* open"⟩],
      [⟨⟨"a/x.cs"⟩, "/*"⟩, ⟨⟨"A.cs"⟩, "class A;"⟩], rfl, by decide +kernel, by decide +kernel⟩
  let file : SourceFile :=
    ⟨⟨"b.cs"⟩, [], [⟨"A", ⟨none, "Box", [⟨some "System", "Guid", []⟩]⟩⟩],
      [⟨"X", .plainClass, none, [], [⟨none, "A", []⟩], [], [], ⟨2, 7⟩, false⟩]⟩
  have read : SourceFile.scan aliasedSource.path aliasedSource.text = .ok file := by cbv
  have acyclic : file.Acyclic := UsingAlias.acyclic_of_rank (fun _ => 0) (by decide)
  obtain ⟨-, l, -, made, -, -, -, checks⟩ :=
    (ofConfigWith_validity Glob.compile (withPatterns ["!/bin//", "///", "!!/*/"])).2 valid
  have reports := (checks [aliasedSource]).2.1 (List.forall_mem_singleton.2 fun file' read' =>
    Except.ok.inj (read.symm.trans read') ▸ acyclic)
  exact ⟨(ofConfigWith_validity Glob.compile _).1 _ invalid, l, made,
    ((checks faultySources).2.2 _).2 ⟨_, _, first, faulty, rfl⟩,
    reports.2 (List.forall_mem_singleton.2 ⟨file, read⟩)⟩

/-- A class whose base is an alias that reaches itself. -/
def loopingSource : Source :=
  ⟨⟨"a.cs"⟩, "using A = Box<A>;\nclass X : A { }"⟩

def loopingFile : SourceFile :=
  ⟨⟨"a.cs"⟩, [], [⟨"A", ⟨none, "Box", [⟨none, "A", []⟩]⟩⟩],
    [⟨"X", .plainClass, none, [], [⟨none, "A", []⟩], [], [], ⟨2, 7⟩, false⟩]⟩

theorem scan_loopingSource :
    SourceFile.scan loopingSource.path loopingSource.text = .ok loopingFile := by
  cbv

/-- That all sources are scanned does not make the linter of a valid configuration report. -/
theorem endless_on_loopingSource :
    ¬ ∀ (c : Config) (l : Linter) (sources : List Source), c.checkWith Glob.compile = .ok () →
      ofConfig c = .ok l →
      (∀ s ∈ sources, ∃ file, SourceFile.scan s.path s.text = .ok file) →
      ∃ report, l.checkSourcesWith? Glob.compile sources = some (.ok report) := by
  intro claim
  have valid : Config.standard.checkWith Glob.compile = .ok () := by decide +kernel
  obtain ⟨rules, registered⟩ := (Config.checkWith_eq_ok_iff.1 valid).exists_ruleSet
  obtain ⟨report, reported⟩ := claim .standard ⟨.standard, rules⟩ [loopingSource] valid
    (ofConfigWith_of_check valid registered)
    (List.forall_mem_singleton.2 ⟨loopingFile, scan_loopingSource⟩)
  have scanned : Source.scanAll [loopingSource] = .ok [loopingFile] := by
    rw [Source.scanAll, List.mergeSort_singleton, List.mapM_cons, Source.scan, scan_loopingSource]
    rfl
  have used : WrittenType.Uses loopingFile.aliases [] ⟨none, "A", []⟩ "A" :=
    ⟨by decide, by decide, by decide⟩
  have around : UsingAlias.Refers loopingFile.aliases [] "A" "A" :=
    ⟨_, rfl, _, List.mem_singleton_self _, used⟩
  have endless : checkSourcesWith? Glob.compile ⟨.standard, rules⟩ [loopingSource] = none :=
    checkSourcesWith?_eq_none_iff.2 ⟨[loopingFile], scanned, _, List.mem_singleton_self _,
      _, List.mem_singleton_self _, fun free => free "A" used ⟨"A", .refl, .single around⟩⟩
  cases endless.symm.trans reported

end Linter

end ConventionLint
