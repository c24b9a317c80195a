import ConventionLint.Proofs.Lists
import ConventionLint.Proofs.Text.Splitting
import ConventionLint.Proofs.Workspace.Directories
import ConventionLint.Workspace.FileTree

/-!
# What lies below a path

In a tree whose directories have entries of different names, the files that are listed below a path
are those to which one gets by joining names to it, however the path itself is spelled.
-/
namespace ConventionLint

namespace Path

def IsEntryName (name : String) : Prop :=
  '/' ∉ name.toList ∧ name.toList ∉ [[], ['.'], ['.', '.']]

instance (name : String) : Decidable (IsEntryName name) :=
  inferInstanceAs (Decidable (_ ∧ _))

/-- A path with names joined to it. -/
def LiesAt (p q : Path) : Prop :=
  ∃ names : List String, (∀ name ∈ names, IsEntryName name) ∧ q = names.foldl join p

variable {p q : Path} {name : String} {names : List String} {s t : List Char}

theorem IsEntryName.plain (named : IsEntryName name) : isFiller name.toList = false := by
  have := named.2
  simp_all [isFiller]

theorem IsEntryName.component (named : IsEntryName name) :
    componentOf name.toList = .name name := by
  have := named.2
  simp_all [componentOf]

theorem ofText_append_slash (some : s ≠ []) (t : List Char) :
    Anchor.ofText (s ++ '/' :: t) = ((Anchor.ofText s).1, (Anchor.ofText s).2 ++ '/' :: t) := by
  rw [Anchor.ofText.eq_def s]
  split
  · rfl
  · rfl
  · rfl
  · next root dot current =>
    -- the slash is too late to make an anchor of what stands in front of it
    rw [Anchor.ofText.eq_def]
    split
    · next parts => cases s <;> simp_all
    · next parts => cases s <;> simp_all
    · next parts =>
      cases s with
      | nil => simp_all
      | cons c s => cases s <;> simp_all
    · rfl

/-- Joining a name puts it behind a slash, which may have been there already. -/
theorem join_cases (named : IsEntryName name) (p : Path) :
    (p.text.toList = [] ∧ p.join name = ⟨String.ofList name.toList⟩) ∨
    (p.text.toList = ['/'] ∧ p.join name = ⟨String.ofList ('/' :: name.toList)⟩) ∨
    ∃ s, s ≠ [] ∧ (p.text.toList = s ∨ p.text.toList = s ++ ['/']) ∧
      p.join name = ⟨String.ofList (s ++ '/' :: name.toList)⟩ := by
  have relative : name.toList.head? ≠ some '/' := fun head => named.1 (List.mem_of_head? head)
  rw [join, if_neg relative]
  by_cases empty : p.text = ""
  · exact .inl ⟨by simp [empty], by simp [empty]⟩
  · have nonempty : p.text.toList ≠ [] := by simpa using empty
    by_cases slash : p.text.toList.getLast? = some '/'
    · obtain ⟨front, parts⟩ := List.getLast?_eq_some_iff.1 slash
      have joined : p.text ++ name = String.ofList (front ++ '/' :: name.toList) := by
        rw [← String.toList_inj]
        simp [parts]
      rw [if_pos (by simp [slash]), joined]
      cases front with
      | nil => exact .inr (.inl ⟨parts, rfl⟩)
      | cons c front => exact .inr (.inr ⟨c :: front, List.cons_ne_nil _ _, .inr parts, rfl⟩)
    · have joined : p.text ++ "/" ++ name =
          String.ofList (p.text.toList ++ '/' :: name.toList) := by
        rw [← String.toList_inj]
        simp
      rw [if_neg (by simp [slash, empty]), joined]
      exact .inr (.inr ⟨p.text.toList, nonempty, .inl rfl, rfl⟩)

theorem text_join_ne (named : IsEntryName name) (p : Path) : (p.join name).text.toList ≠ [] := by
  have nonempty : name.toList ≠ [] := fun none => named.2 (by simp [none])
  obtain ⟨-, joined⟩ | ⟨-, joined⟩ | ⟨s, -, -, joined⟩ := join_cases named p
  · simpa [joined] using nonempty
  · simp [joined]
  · simp [joined]

/-- Joining a name keeps the anchor and adds a last segment. -/
theorem ofText_join (named : IsEntryName name) (p : Path) :
    ∃ rest, Anchor.ofText (p.join name).text.toList = (p.anchor, rest) ∧
      visible (Text.splitAtEach '/' rest) = visible p.segments ++ [name.toList] ∧
      (Text.splitAtEach '/' rest).getLast? = some name.toList := by
  have single := Text.splitAtEach_of_notMem named.1
  have shown : visible [name.toList] = [name.toList] := by
    rw [visible_cons_of_plain named.plain, visible_nil]
  rw [visible_segments, anchor]
  obtain ⟨empty, joined⟩ | ⟨root, joined⟩ | ⟨s, some, written, joined⟩ := join_cases named p
  · have free := Anchor.ofText_of_plain named.plain named.1 []
    rw [List.append_nil] at free
    rw [joined, String.toList_ofList, empty, free]
    exact ⟨_, rfl, by rw [single, shown]; rfl, by rw [single]; rfl⟩
  · rw [joined, String.toList_ofList, root]
    exact ⟨_, rfl, by rw [single, shown]; rfl, by rw [single]; rfl⟩
  · have kept : (Anchor.ofText p.text.toList).1 = (Anchor.ofText s).1 ∧
        visible (Text.splitAtEach '/' (Anchor.ofText p.text.toList).2) =
          visible (Text.splitAtEach '/' (Anchor.ofText s).2) := by
      rcases written with same | slash
      · rw [same]
        exact ⟨rfl, rfl⟩
      · rw [slash, ofText_append_slash some, Text.splitAtEach_append_cons, visible_append]
        exact ⟨rfl, List.append_nil _⟩
    rw [joined, String.toList_ofList, ofText_append_slash some, kept.1, kept.2]
    refine ⟨_, rfl, ?_, ?_⟩
    · rw [Text.splitAtEach_append_cons, visible_append, single, shown]
    · rw [Text.splitAtEach_append_cons, single, List.getLast?_concat]

theorem components_join (named : IsEntryName name) (p : Path) :
    (p.join name).components = p.components ++ [.name name] := by
  obtain ⟨rest, opened, shown, -⟩ := ofText_join named p
  rw [components_eq, anchor, visible_segments, opened, shown, List.map_append, List.map_singleton,
    named.component, components_eq, List.append_assoc]

theorem anchor_join (named : IsEntryName name) (p : Path) : (p.join name).anchor = p.anchor := by
  obtain ⟨rest, opened, -⟩ := ofText_join named p
  rw [anchor, opened]

theorem endsAsDirectory_join (named : IsEntryName name) (p : Path) :
    FileTree.endsAsDirectory (p.join name) = false := by
  obtain ⟨rest, opened, -, last⟩ := ofText_join named p
  rw [FileTree.endsAsDirectory]
  rcases segments_of_ofText opened with none | ⟨-, pieces⟩
  · rw [none]
    rfl
  · rw [pieces, last]
    exact named.plain

end Path

open Path

namespace FileNode

variable {here found : FileNode} {above : List FileNode} {p q : Path} {name : String}
  {names : List String}

/-- What names lead to. -/
def descend (node : FileNode) : List String → Except ReadFault FileNode
  | [] => .ok node
  | name :: names =>
    match node with
    | .file _ => .error .notDirectory
    | .directory entries =>
      match entries.lookup name with
      | some inner => inner.descend names
      | none => .error .notFound

theorem walk_names (above : List FileNode) (here : FileNode) (names : List String) :
    walk above here (names.map .name) = here.descend names := by
  induction names generalizing above here with
  | nil => cases here <;> rfl
  | cons name names ih =>
    cases here with
    | file content => rfl
    | directory entries =>
      rw [List.map_cons, walk, descend]
      cases entries.lookup name with
      | none => rfl
      | some inner => exact ih _ inner

/-- Where a walk arrives, its first step went out to a directory around or in to an entry, or stayed,
and would have done so whatever came next. -/
theorem exists_step_of_walk {component : Component} {rest : List Component}
    (arrived : walk above here (component :: rest) = .ok found) :
    ∃ outer next, (∀ rest, walk above here (component :: rest) = walk outer next rest) ∧
      ∀ t ∈ next :: outer, t ∈ here :: above ∨
        ∃ entries, here = .directory entries ∧ ∃ e ∈ entries, e.2 = t := by
  cases here with
  | file content => cases arrived
  | directory entries =>
    cases component with
    | current => exact ⟨above, _, fun _ => rfl, fun t member => .inl member⟩
    | root =>
      refine ⟨[], above.getLast?.getD (.directory entries), fun _ => rfl, ?_⟩
      refine List.forall_mem_singleton.2 (.inl ?_)
      cases outermost : above.getLast? with
      | none => exact List.mem_cons_self
      | some root => exact List.mem_cons_of_mem _ (List.mem_of_getLast? outermost)
    | parent =>
      cases above with
      | nil => exact ⟨[], _, fun _ => rfl, fun t member => .inl member⟩
      | cons outer further =>
        exact ⟨further, outer, fun _ => rfl, fun t member => .inl (List.mem_cons_of_mem _ member)⟩
    | name name =>
      cases known : entries.lookup name with
      | none =>
        rw [walk, known] at arrived
        cases arrived
      | some inner =>
        refine ⟨_ :: above, inner, fun _ => by rw [walk, known], ?_⟩
        exact List.forall_mem_cons.2
          ⟨.inr ⟨entries, rfl, (name, inner), mem_of_lookup known, rfl⟩, fun t => .inl⟩

theorem walk_append {components : List Component}
    (arrived : walk above here components = .ok found) (names : List String) :
    walk above here (components ++ names.map .name) = found.descend names := by
  induction components generalizing above here with
  | nil =>
    cases arrived
    exact walk_names above found names
  | cons component rest ih =>
    obtain ⟨outer, next, step, -⟩ := exists_step_of_walk arrived
    rw [step] at arrived
    rw [List.cons_append, step, ih arrived]

/-- What holds of a node and passes from directories to their entries holds wherever one walks. -/
theorem of_walk {P : FileNode → Prop}
    (inner : ∀ entries, P (.directory entries) → ∀ e ∈ entries, P e.2) {components : List Component}
    (around : ∀ t ∈ here :: above, P t) (arrived : walk above here components = .ok found) :
    P found := by
  induction components generalizing above here with
  | nil =>
    cases arrived
    exact around _ List.mem_cons_self
  | cons component rest ih =>
    obtain ⟨outer, next, step, reached⟩ := exists_step_of_walk arrived
    refine ih (fun t member => ?_) (step rest ▸ arrived)
    obtain known | ⟨entries, rfl, e, entry, rfl⟩ := reached t member
    · exact around t known
    · exact inner entries (around _ List.mem_cons_self) e entry

/-- Each directory has entries of different names, as entries can have them. -/
inductive WellFormed : FileNode → Prop
  | file (content : FileContent) : WellFormed (.file content)
  | directory {entries : List (String × FileNode)} (distinct : (entries.map (·.1)).Nodup)
      (named : ∀ e ∈ entries, IsEntryName e.1) (inner : ∀ e ∈ entries, WellFormed e.2) :
      WellFormed (.directory entries)

theorem filesOfEntries_eq (p : Path) (entries : List (String × FileNode)) :
    filesOfEntries p entries = entries.flatMap fun e => filesBelow (p.join e.1) e.2 := by
  induction entries with
  | nil => rfl
  | cons e entries ih => rw [filesOfEntries, ih, List.flatMap_cons]

theorem mem_filesBelow (wellFormed : here.WellFormed) :
    q ∈ filesBelow p here ↔ ∃ names, (∀ name ∈ names, IsEntryName name) ∧
      q = names.foldl join p ∧ ∃ content, here.descend names = .ok (.file content) := by
  induction wellFormed generalizing p with
  | file content =>
    rw [filesBelow, List.mem_singleton]
    constructor
    · rintro rfl
      exact ⟨[], nofun, rfl, content, rfl⟩
    · rintro ⟨names, -, rfl, content, reached⟩
      cases names with
      | nil => rfl
      | cons name names => cases reached
  | @directory entries distinct named inner ih =>
    rw [filesBelow, filesOfEntries_eq, List.mem_flatMap]
    constructor
    · rintro ⟨e, member, listed⟩
      obtain ⟨names, plain, rfl, content, reached⟩ := (ih e member).1 listed
      have known : entries.lookup e.1 = some e.2 := (lookup_eq_some_iff_mem distinct).2 member
      refine ⟨e.1 :: names, List.forall_mem_cons.2 ⟨named e member, plain⟩, rfl, content, ?_⟩
      rw [descend, known]
      exact reached
    · rintro ⟨names, plain, rfl, content, reached⟩
      cases names with
      | nil => cases reached
      | cons name names =>
        rw [List.forall_mem_cons] at plain
        rw [descend] at reached
        cases known : entries.lookup name with
        | none =>
          rw [known] at reached
          cases reached
        | some next =>
          rw [known] at reached
          exact ⟨(name, next), mem_of_lookup known,
            (ih _ (mem_of_lookup known)).2 ⟨names, plain.2, rfl, content, reached⟩⟩

end FileNode

namespace FileTree

variable {tree : FileTree} {found : FileNode} {p q : Path} {names : List String}

def WellFormed (tree : FileTree) : Prop :=
  tree.root.WellFormed

theorem stepsTo_foldl_join (tree : FileTree) (named : ∀ name ∈ names, IsEntryName name)
    (p : Path) : tree.stepsTo (names.foldl join p) = tree.stepsTo p ++ names.map .name := by
  induction names generalizing p with
  | nil => simp
  | cons name names ih =>
    rw [List.forall_mem_cons] at named
    have step : tree.stepsTo (p.join name) = tree.stepsTo p ++ [.name name] := by
      rw [stepsTo, stepsTo, anchor_join named.1, components_join named.1]
      split <;> simp
    rw [List.foldl_cons, ih named.2, step, List.append_assoc]
    rfl

theorem walk_of_resolve (arrived : tree.resolve p = .ok found) :
    tree.root.walk [] (tree.stepsTo p) = .ok found := by
  rw [resolve] at arrived
  split at arrived
  · cases arrived
  · split at arrived
    · next content reached =>
      split at arrived
      · cases arrived
      · rw [reached, arrived]
    · exact arrived

/-- Names that are joined to a path lead on from where the path leads. -/
theorem resolve_foldl_join (arrived : tree.resolve p = .ok found)
    (named : ∀ name ∈ names, IsEntryName name) :
    tree.resolve (names.foldl join p) = found.descend names := by
  rcases List.eq_nil_or_concat' names with rfl | ⟨front, last, rfl⟩
  · exact arrived
  · have steps := stepsTo_foldl_join tree named p
    have lastNamed : IsEntryName last := named last (by simp)
    rw [List.foldl_concat] at steps ⊢
    have nonempty : ((front.foldl join p).join last).text.isEmpty = false := by
      simpa using text_join_ne lastNamed (front.foldl join p)
    rw [resolve, nonempty, steps, FileNode.walk_append (walk_of_resolve arrived),
      endsAsDirectory_join lastNamed]
    cases found.descend (front ++ [last]) with
    | error fault => rfl
    | ok there => cases there <;> rfl

theorem WellFormed.of_resolve (wellFormed : tree.WellFormed)
    (arrived : tree.resolve p = .ok found) : found.WellFormed := by
  refine FileNode.of_walk (fun entries formed => ?_) (List.forall_mem_singleton.2 wellFormed)
    (walk_of_resolve arrived)
  cases formed with
  | directory _ _ inner => exact inner

theorem isFile_eq_true_iff :
    tree.isFile p = true ↔ ∃ content, tree.resolve p = .ok (.file content) := by
  rw [isFile]
  split <;> simp_all

/-- The files under a path are those at the path or below it. -/
theorem mem_filesUnder (wellFormed : tree.WellFormed) (arrived : tree.resolve p = .ok found) :
    q ∈ tree.filesUnder p ↔ tree.isFile q = true ∧ p.LiesAt q := by
  rw [filesUnder, arrived]
  simp only [List.mem_mergeSort, FileNode.mem_filesBelow (wellFormed.of_resolve arrived),
    isFile_eq_true_iff]
  constructor
  · rintro ⟨names, named, rfl, content, reached⟩
    exact ⟨⟨content, (resolve_foldl_join arrived named).trans reached⟩, names, named, rfl⟩
  · rintro ⟨⟨content, reached⟩, names, named, rfl⟩
    exact ⟨names, named, rfl, content, (resolve_foldl_join arrived named).symm.trans reached⟩

end FileTree

end ConventionLint
