import ConventionLint.Proofs.Report.Sorting
import ConventionLint.Proofs.Workspace.Decision
import ConventionLint.Proofs.Workspace.Listing
import ConventionLint.Workspace.Loading
import Mathlib.Data.List.Sort

/-!
# The source files that arguments mean

Arguments mean a set of places. However often and in whatever order files and directories are named,
each source file at or below one of them that the filter takes in is found once, in the order of
paths; and nothing is found when one of the arguments does not exist.
-/
namespace ConventionLint

namespace Path

variable {p q r : Path} {l l' : List Path}

/-- One path comes before another and is not the same. -/
def Before (p q : Path) : Prop :=
  compare p q = .lt

theorem Before.trans (first : p.Before q) (second : q.Before r) : p.Before r :=
  Std.TransCmp.lt_trans first second

theorem le_trans (first : p.le q = true) (second : q.le r = true) : p.le r = true :=
  Std.TransCmp.isLE_trans first second

theorem le_total (p q : Path) : (p.le q || q.le p) = true := by
  have swapped : compare q p = (compare p q).swap := Std.OrientedCmp.eq_swap
  rw [le, le, swapped]
  cases compare p q <;> rfl

theorem before_of_le (ordered : p.le q = true) (apart : p.same q = false) : p.Before q := by
  rw [le] at ordered
  rw [same] at apart
  rw [Before]
  cases h : compare p q <;> simp_all

theorem dropRepeats_sublist (l : List Path) : (dropRepeats l).Sublist l := by
  induction l with
  | nil => exact List.Sublist.slnil
  | cons p l ih => exact ((List.dropWhile_sublist _).trans ih).cons_cons p

theorem exists_mem_dropRepeats (member : q ∈ l) :
    ∃ r ∈ dropRepeats l, r.components = q.components := by
  induction l with
  | nil => cases member
  | cons p l ih =>
    rcases List.mem_cons.1 member with rfl | further
    · exact ⟨q, List.mem_cons_self, rfl⟩
    · obtain ⟨r, kept, equal⟩ := ih further
      rw [← List.takeWhile_append_dropWhile (p := p.same) (l := dropRepeats l), List.mem_append]
        at kept
      rcases kept with dropped | kept
      · have same := same_iff.1 (List.all_eq_true.1 List.all_takeWhile r dropped)
        exact ⟨p, List.mem_cons_self, same.trans equal⟩
      · exact ⟨r, List.mem_cons_of_mem _ kept, equal⟩

theorem pairwise_dropRepeats (sorted : l.Pairwise fun p q => p.le q = true) :
    (dropRepeats l).Pairwise Before := by
  induction l with
  | nil => exact .nil
  | cons p l ih =>
    rw [List.pairwise_cons] at sorted
    have further := (ih sorted.2).sublist (List.dropWhile_sublist p.same)
    rw [dropRepeats, List.pairwise_cons]
    refine ⟨?_, further⟩
    have part := (List.dropWhile_sublist p.same).trans (dropRepeats_sublist l)
    have apart := List.head?_dropWhile_not p.same (dropRepeats l)
    -- what is not dropped begins with a path that is not the same, and all others come behind it
    cases rest : (dropRepeats l).dropWhile p.same with
    | nil => simp
    | cons r rest' =>
      rw [rest] at apart part further
      have first : p.Before r :=
        before_of_le (sorted.1 r (part.subset List.mem_cons_self)) (by simpa using apart)
      rw [List.pairwise_cons] at further
      exact List.forall_mem_cons.2 ⟨first, fun q member => first.trans (further.1 q member)⟩

theorem mem_of_mem_sortedSet (member : q ∈ sortedSet l) : q ∈ l :=
  List.mem_mergeSort.1 ((dropRepeats_sublist _).subset member)

theorem exists_mem_sortedSet (member : q ∈ l) :
    ∃ r ∈ sortedSet l, r.components = q.components :=
  exists_mem_dropRepeats (List.mem_mergeSort.2 member)

theorem pairwise_sortedSet (l : List Path) : (sortedSet l).Pairwise Before := by
  have transitive (p q r : Path) (first : p.le q = true) (second : q.le r = true) :
      p.le r = true := le_trans first second
  exact pairwise_dropRepeats (@List.pairwise_mergeSort Path le transitive le_total l)

/-- Lists in order and without repetitions mean the same places in turn if they mean the same
places. -/
theorem map_components_eq (sorted : l.Pairwise Before) (sorted' : l'.Pairwise Before)
    (same : ∀ place, place ∈ l.map components ↔ place ∈ l'.map components) :
    l.map components = l'.map components := by
  have reflexive (a : List Component) : compareComponents a a = .eq := by
    rw [compareComponents_eq]
    exact Std.ReflCmp.compare_self
  have swapped (a b : List Component) : compareComponents a b = (compareComponents b a).swap := by
    rw [compareComponents_eq]
    exact Std.OrientedCmp.eq_swap
  have irreflexive : Std.Irrefl fun a b => compareComponents a b = .lt :=
    ⟨fun a before => by cases (reflexive a).symm.trans before⟩
  have antisymmetric : Std.Antisymm fun a b => compareComponents a b = .lt := by
    refine ⟨fun a b before after => ?_⟩
    rw [swapped, after] at before
    cases before
  have places : (l.map components).Pairwise fun a b => compareComponents a b = .lt :=
    List.pairwise_map.2 sorted
  exact places.eq_of_mem_iff (List.pairwise_map.2 sorted') same

theorem mem_map_components_sortedSet {place : List Component} :
    place ∈ (sortedSet l).map components ↔ place ∈ l.map components := by
  rw [List.mem_map, List.mem_map]
  constructor
  · rintro ⟨q, member, rfl⟩
    exact ⟨q, mem_of_mem_sortedSet member, rfl⟩
  · rintro ⟨q, member, rfl⟩
    exact exists_mem_sortedSet member

/-- The places in a list do not depend on the order in which they are listed or on how often. -/
theorem forall₂_sortedSet (members : ∀ q, q ∈ l ↔ q ∈ l') :
    List.Forall₂ (fun p q => p.same q = true) (sortedSet l) (sortedSet l') := by
  have places : (sortedSet l).map components = (sortedSet l').map components := by
    refine map_components_eq (pairwise_sortedSet l) (pairwise_sortedSet l') fun place => ?_
    rw [mem_map_components_sortedSet, mem_map_components_sortedSet]
    simp only [List.mem_map, members]
  have steps : List.Forall₂ Eq ((sortedSet l).map components) ((sortedSet l').map components) := by
    rw [List.forall₂_eq_eq_eq]
    exact places
  rw [List.forall₂_map_left_iff, List.forall₂_map_right_iff] at steps
  exact steps.imp fun p q => same_iff.2

theorem isSource_iff : p.isSource = true ↔
    ∃ ending, p.extension = some ending ∧ ending.toList.map Char.toLower = "cs".toList := by
  rw [isSource, Option.any_eq_true]
  simp

end Path

inductive FileNode.IsText : FileNode → Prop
  | file (s : String) : IsText (.file (.text s))
  | directory {entries : List (String × FileNode)} (inner : ∀ e ∈ entries, IsText e.2) :
      IsText (.directory entries)

namespace FileTree

variable {tree : FileTree} {p : Path}

def IsThere (tree : FileTree) (p : Path) : Prop :=
  tree.isFile p = true ∨ tree.isDirectory p = true

instance (tree : FileTree) (p : Path) : Decidable (tree.IsThere p) :=
  inferInstanceAs (Decidable (_ ∨ _))

theorem isThere_iff : tree.IsThere p ↔ ∃ found, tree.resolve p = .ok found := by
  rw [IsThere, isFile, isDirectory]
  cases tree.resolve p with
  | error fault => simp
  | ok found => cases found <;> simp

theorem exists_read_of_isText (text : tree.root.IsText) (file : tree.isFile p = true) :
    ∃ s, tree.read p = .ok s := by
  obtain ⟨content, arrived⟩ := isFile_eq_true_iff.1 file
  have inner (entries : List (String × FileNode)) (outer : FileNode.IsText (.directory entries)) :
      ∀ e ∈ entries, e.2.IsText := by
    cases outer
    assumption
  have there : FileNode.IsText (.file content) :=
    FileNode.of_walk inner (List.forall_mem_singleton.2 text) (walk_of_resolve arrived)
  cases there with
  | file s => exact ⟨s, by rw [read, arrived]⟩

end FileTree

namespace PathFilter

/-- Every ignore file that is there can be read. -/
def CanRead (f : PathFilter) (tree : FileTree) : Prop :=
  ∀ name ∈ f.ignoreName, ∀ p, AllReadable tree.access name p

theorem canRead_of_isText {f : PathFilter} {tree : FileTree} (text : tree.root.IsText) :
    f.CanRead tree :=
  fun _ _ _ _ _ file => FileTree.exists_read_of_isText text file

/-- The arguments mean a file: it is one of them or lies below one, it ends like a source file, and
the filter takes it in. -/
structure Means (f : PathFilter) (tree : FileTree) (paths : List Path) (q : Path) : Prop where
  file : tree.isFile q = true
  lies : ∃ p ∈ paths, p.LiesAt q
  ending : ∃ ending, q.extension = some ending ∧ ending.toList.map Char.toLower = "cs".toList
  taken : f.shouldAnalyze tree q = .ok true

variable {f : PathFilter} {tree : FileTree} {paths paths' : List Path} {p q : Path}

theorem exists_shouldAnalyze (readable : f.CanRead tree) (p : Path) :
    ∃ isIn, f.shouldAnalyze tree p = .ok isIn := by
  rw [shouldAnalyze, shouldAnalyzeWith]
  split
  · exact ⟨false, rfl⟩
  · cases named : f.ignoreName with
    | none => exact ⟨true, rfl⟩
    | some name =>
      obtain ⟨ignored, decided, -⟩ := exists_isIgnored (g := .standard) (readable name named p)
      exact ⟨!ignored, by simp only [decided]; rfl⟩

theorem exists_filter (readable : f.CanRead tree) (l : List Path) :
    ∃ kept, f.filter tree l = .ok kept ∧
      ∀ q, q ∈ kept ↔ q ∈ l ∧ f.shouldAnalyze tree q = .ok true := by
  induction l with
  | nil => exact ⟨[], rfl, by simp⟩
  | cons p l ih =>
    obtain ⟨isIn, decided⟩ := exists_shouldAnalyze readable p
    obtain ⟨kept, done, members⟩ := ih
    refine ⟨if isIn then p :: kept else kept, ?_, fun q => ?_⟩
    · rw [filter, decided, done]
      rfl
    · have here : (q = p ∧ f.shouldAnalyze tree q = .ok true) ↔ q = p ∧ isIn = true :=
        and_congr_right fun same => by rw [same, decided, Except.ok.injEq]
      rw [List.mem_cons, or_and_right, here, ← members]
      cases isIn <;> simp

theorem means_iff : f.Means tree paths q ↔ ∃ p ∈ paths,
    (tree.isFile q = true ∧ p.LiesAt q) ∧ q.isSource = true ∧
      f.shouldAnalyze tree q = .ok true := by
  constructor
  · rintro ⟨file, ⟨p, member, lies⟩, ending, taken⟩
    exact ⟨p, member, ⟨file, lies⟩, Path.isSource_iff.2 ending, taken⟩
  · rintro ⟨p, member, ⟨file, lies⟩, source, taken⟩
    exact ⟨file, ⟨p, member, lies⟩, Path.isSource_iff.1 source, taken⟩

/-- What one argument means is found. -/
theorem exists_sourcesAt (readable : f.CanRead tree) (wellFormed : tree.WellFormed)
    (there : tree.IsThere p) :
    ∃ found, f.sourcesAt tree p = .ok found ∧ ∀ q, q ∈ found ↔
      (tree.isFile q = true ∧ p.LiesAt q) ∧ q.isSource = true ∧
        f.shouldAnalyze tree q = .ok true := by
  obtain ⟨found, arrived⟩ := FileTree.isThere_iff.1 there
  have below (q : Path) := FileTree.mem_filesUnder (q := q) wellFormed arrived
  cases found with
  | directory entries =>
    have directory : tree.isDirectory p = true := by rw [FileTree.isDirectory, arrived]
    obtain ⟨kept, done, members⟩ := exists_filter readable (tree.filesUnder p)
    refine ⟨kept.filter (·.isSource), ?_, fun q => ?_⟩
    · rw [sourcesAt, if_pos directory, filesUnder, done]
      rfl
    · rw [List.mem_filter, members, below, and_assoc, and_comm (b := q.isSource = true)]
  | file content =>
    have noDirectory : tree.isDirectory p = false := by rw [FileTree.isDirectory, arrived]
    have file : tree.isFile p = true := by rw [FileTree.isFile, arrived]
    have alone : tree.filesUnder p = [p] := by
      rw [FileTree.filesUnder, arrived]
      exact List.mergeSort_singleton p
    rw [alone] at below
    rw [sourcesAt, if_neg (ne_true_of_eq_false noDirectory), if_pos file]
    by_cases source : p.isSource = true
    · obtain ⟨kept, done, members⟩ := exists_filter readable [p]
      refine ⟨kept, by rw [if_pos source, done], fun q => ?_⟩
      rw [members, ← below]
      refine and_congr_right fun named => ?_
      rw [List.mem_singleton.1 named, iff_and_self]
      exact fun _ => source
    · refine ⟨[], by rw [if_neg source]; rfl, fun q => iff_of_false List.not_mem_nil ?_⟩
      rintro ⟨lies, other, -⟩
      exact source (List.mem_singleton.1 ((below q).2 lies) ▸ other)

theorem exists_discover (readable : f.CanRead tree) (wellFormed : tree.WellFormed)
    (there : ∀ p ∈ paths, tree.IsThere p) :
    ∃ found, f.discover tree paths = .ok (Path.sortedSet found) ∧
      ∀ q, q ∈ found ↔ f.Means tree paths q := by
  obtain ⟨lists, done⟩ := exists_mapM_iff.2 fun p member =>
    (exists_sourcesAt readable wellFormed (there p member)).imp fun _ => And.left
  refine ⟨lists.flatten, by rw [discover, done]; rfl, fun q => ?_⟩
  rw [means_iff, List.mem_flatten]
  constructor
  · rintro ⟨l, listed, member⟩
    obtain ⟨p, named, found⟩ := (mem_iff_of_mapM done).1 listed
    obtain ⟨l', found', members⟩ := exists_sourcesAt readable wellFormed (there p named)
    obtain rfl : l' = l := Except.ok.inj (found'.symm.trans found)
    exact ⟨p, named, (members q).1 member⟩
  · rintro ⟨p, named, meant⟩
    obtain ⟨l, found, members⟩ := exists_sourcesAt readable wellFormed (there p named)
    exact ⟨l, (mem_iff_of_mapM done).2 ⟨p, named, found⟩, (members q).2 meant⟩

theorem sourcesAt_of_missing (missing : ¬tree.IsThere p) :
    f.sourcesAt tree p = .error (.noSuchPath p) := by
  rw [FileTree.IsThere, not_or] at missing
  rw [sourcesAt, if_neg missing.2, if_neg missing.1]
  rfl

theorem exists_noSuchPath (readable : f.CanRead tree) (wellFormed : tree.WellFormed)
    (missing : ∃ p ∈ paths, ¬tree.IsThere p) :
    ∃ p ∈ paths, ¬tree.IsThere p ∧ f.discover tree paths = .error (.noSuchPath p) := by
  obtain ⟨p, named, missing⟩ := missing
  have failed : fails (f.sourcesAt tree) p = true :=
    fails_eq_true_iff.2 ⟨_, sourcesAt_of_missing missing⟩
  obtain ⟨first, found⟩ := Option.isSome_iff_exists.1 (List.find?_isSome.2 ⟨p, named, failed⟩)
  obtain ⟨e, fault⟩ := fails_eq_true_iff.1 (List.find?_some found)
  have missing : ¬tree.IsThere first := by
    intro there
    obtain ⟨l, fine, -⟩ := exists_sourcesAt (f := f) readable wellFormed there
    cases fine.symm.trans fault
  have stopped := mapM_eq_error_iff.2 ⟨first, found, sourcesAt_of_missing missing⟩
  exact ⟨first, List.mem_of_find?_eq_some found, missing, by rw [discover, stopped]; rfl⟩

/-- Discovery is an operation on sets. It depends on the arguments only through the places that they
mean: these are listed in order and once each, however the arguments overlap, are repeated or
permuted, and with an argument that does not exist the call fails. -/
theorem discover_set (readable : f.CanRead tree) (wellFormed : tree.WellFormed) :
    ((∀ p ∈ paths, tree.IsThere p) → ∃ files, f.discover tree paths = .ok files ∧
      files.Pairwise (fun p q => compare p q = .lt) ∧
      (∀ q ∈ files, f.Means tree paths q) ∧
      (∀ q, f.Means tree paths q → ∃ r ∈ files, r.same q = true) ∧
      ∀ paths', (∀ p, p ∈ paths' ↔ p ∈ paths) → ∃ files', f.discover tree paths' = .ok files' ∧
        List.Forall₂ (fun p q => p.same q = true) files files') ∧
    ((∃ p ∈ paths, ¬tree.IsThere p) → ∃ e, f.discover tree paths = .error e ∧ e.kind = .io) := by
  constructor
  · intro there
    obtain ⟨found, done, members⟩ := exists_discover readable wellFormed there
    refine ⟨_, done, Path.pairwise_sortedSet found,
      fun q member => (members q).1 (Path.mem_of_mem_sortedSet member), fun q meant => ?_,
      fun paths' again => ?_⟩
    · obtain ⟨r, listed, equal⟩ := Path.exists_mem_sortedSet ((members q).2 meant)
      exact ⟨r, listed, Path.same_iff.2 equal⟩
    · obtain ⟨found', done', members'⟩ := exists_discover (f := f) readable wellFormed
        fun p named => there p ((again p).1 named)
      refine ⟨_, done', Path.forall₂_sortedSet fun q => ?_⟩
      simp only [members, members', means_iff, again]
  · intro missing
    obtain ⟨p, -, -, failed⟩ := exists_noSuchPath readable wellFormed missing
    exact ⟨_, failed, rfl⟩

/-- Two source files of which one is ignored, next to a file of another kind. -/
def workNode : FileNode :=
  .directory [(".stacksignore", .file (.text "Skip.cs\n")),
    ("src", .directory [("Skip.cs", .file (.text "")), ("A.CS", .file (.text "")),
      ("A.txt", .file (.text ""))])]

/-- There is a further source file outside of the working directory. -/
def someSources : FileTree where
  root := .directory [("work", workNode), ("lib", .directory [("B.cs", .file (.text ""))])]
  workingDirectory := ["work"]

theorem isText_someSources : someSources.root.IsText := by
  refine .directory ?_
  simp [workNode, FileNode.IsText.file, FileNode.IsText.directory]

theorem wellFormed_someSources : someSources.WellFormed := by
  have files {entries : List (String × FileNode)} (distinct : (entries.map (·.1)).Nodup)
      (named : ∀ e ∈ entries, Path.IsEntryName e.1)
      (plain : ∀ e ∈ entries, ∃ content, e.2 = .file content) :
      FileNode.WellFormed (.directory entries) := by
    refine .directory distinct named fun e member => ?_
    obtain ⟨content, file⟩ := plain e member
    exact file ▸ .file content
  refine .directory (by decide) (by decide) (List.forall_mem_cons.2 ⟨?_, ?_⟩)
  · refine .directory (by decide) (by decide) (List.forall_mem_cons.2 ⟨.file _, ?_⟩)
    exact List.forall_mem_singleton.2 (files (by decide) (by decide) (by simp))
  · exact List.forall_mem_singleton.2 (files (by decide) (by decide) (by simp))

/-- Files are found by relative and by absolute paths, and above the working directory. -/
theorem discover_set_someSources :
    CanRead ⟨[], some ".stacksignore"⟩ someSources ∧ someSources.WellFormed ∧
    (∃ files, discover ⟨[], some ".stacksignore"⟩ someSources
        [⟨"src/"⟩, ⟨"src//A.CS"⟩, ⟨"/work/src"⟩, ⟨"../lib"⟩, ⟨"src"⟩] = .ok files ∧
      (∀ p ∈ [⟨"src/A.CS"⟩, ⟨"/work/src/A.CS"⟩, ⟨"../lib/B.cs"⟩], ∃ q ∈ files, q.same p = true) ∧
      ∀ p ∈ [⟨"src/Skip.cs"⟩, ⟨"/work/src/Skip.cs"⟩], p ∉ files) ∧
    ∃ e, discover ⟨[], some ".stacksignore"⟩ someSources [⟨"src"⟩, ⟨"/src"⟩] = .error e ∧
      e.kind = .io := by
  have readable : CanRead ⟨[], some ".stacksignore"⟩ someSources :=
    canRead_of_isText isText_someSources
  let paths : List Path := [⟨"src/"⟩, ⟨"src//A.CS"⟩, ⟨"/work/src"⟩, ⟨"../lib"⟩, ⟨"src"⟩]
  have there : ∀ p ∈ paths, someSources.IsThere p := by decide +kernel
  have missing : ∃ p ∈ [⟨"src"⟩, ⟨"/src"⟩], ¬someSources.IsThere p := by decide +kernel
  obtain ⟨files, done, -, means, all, -⟩ := (discover_set readable wellFormed_someSources).1 there
  let named : List (Path × String) :=
    [(⟨"src"⟩, "A.CS"), (⟨"/work/src"⟩, "A.CS"), (⟨"../lib"⟩, "B.cs")]
  have seen : ∀ e ∈ named, e.1 ∈ paths ∧ Path.IsEntryName e.2 ∧
      someSources.isFile (e.1.join e.2) = true ∧ (e.1.join e.2).isSource = true ∧
      shouldAnalyze ⟨[], some ".stacksignore"⟩ someSources (e.1.join e.2) = .ok true := by
    decide +kernel
  have found : ∀ e ∈ named, ∃ q ∈ files, q.same (e.1.join e.2) = true := by
    intro e member
    obtain ⟨listed, plain, file, source, taken⟩ := seen e member
    have lies : e.1.LiesAt (e.1.join e.2) := ⟨[e.2], List.forall_mem_singleton.2 plain, rfl⟩
    exact all _ ⟨file, ⟨e.1, listed, lies⟩, Path.isSource_iff.1 source, taken⟩
  have joined : named.map (fun e => e.1.join e.2)
      = [⟨"src/A.CS"⟩, ⟨"/work/src/A.CS"⟩, ⟨"../lib/B.cs"⟩] := by decide +kernel
  have ignored : ∀ p ∈ [⟨"src/Skip.cs"⟩, ⟨"/work/src/Skip.cs"⟩],
      shouldAnalyze ⟨[], some ".stacksignore"⟩ someSources p = .ok false := by decide +kernel
  refine ⟨readable, wellFormed_someSources, ⟨files, done, ?_, fun p member listed => ?_⟩,
    (discover_set readable wellFormed_someSources).2 missing⟩
  · rw [← joined]
    exact List.forall_mem_map.2 found
  · cases (ignored p member).symm.trans (means p listed).taken

end PathFilter

end ConventionLint
