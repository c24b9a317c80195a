import ConventionLint.Path
import Mathlib.Data.List.Infix

/-!
# The directories around a path

The directories that a path lies in are what its components start with, nearest first. Seen from any
of them the path is what its components go on with, so no directory is passed over.
-/
namespace ConventionLint

namespace Path

variable {p dir : Path} {a : Anchor} {segments front behind : List Segment}

/-- The segments that are no filler. -/
def visible (segments : List Segment) : List Segment :=
  segments.filter (!isFiller ·)

theorem isFiller_iff {s : Segment} : isFiller s = true ↔ s = [] ∨ s = ['.'] := by
  simp [isFiller]

@[simp] theorem visible_nil : visible [] = [] := rfl

theorem visible_cons_of_filler {s : Segment} (filler : isFiller s = true) :
    visible (s :: segments) = visible segments :=
  List.filter_cons_of_neg (by simp [filler])

theorem visible_cons_of_plain {s : Segment} (plain : isFiller s = false) :
    visible (s :: segments) = s :: visible segments :=
  List.filter_cons_of_pos (by simp [plain])

@[simp] theorem visible_append (front behind : List Segment) :
    visible (front ++ behind) = visible front ++ visible behind :=
  List.filter_append ..

@[simp] theorem visible_reverse (segments : List Segment) :
    visible segments.reverse = (visible segments).reverse :=
  List.filter_reverse ..

@[simp] theorem visible_dropFiller (segments : List Segment) :
    visible (dropFiller segments) = visible segments := by
  induction segments with
  | nil => rfl
  | cons s rest ih =>
    by_cases h : isFiller s = true
    · rw [dropFiller, List.dropWhile_cons_of_pos h, ← dropFiller, ih, visible_cons_of_filler h]
    · rw [dropFiller, List.dropWhile_cons_of_neg h]

theorem components_eq (p : Path) :
    p.components = p.anchor.components ++ (visible p.segments).map componentOf := rfl

/-- Segments that can stand behind an anchor without being taken for something else. -/
structure Anchor.Precedes (a : Anchor) (segments : List Segment) : Prop where
  parted : ∀ s ∈ segments, '/' ∉ s
  current : a = .current → ∀ s ∈ segments.head?, s = []
  free : a = .none → ∀ s ∈ segments.head?, isFiller s = false

theorem Anchor.Precedes.of_append (h : a.Precedes (front ++ behind)) : a.Precedes front := by
  have first (s : Segment) (head : s ∈ front.head?) : s ∈ (front ++ behind).head? := by
    simp_all [List.head?_append]
  exact ⟨fun s member => h.parted s (List.mem_append_left _ member),
    fun anchored s head => h.current anchored s (first s head),
    fun unanchored s head => h.free unanchored s (first s head)⟩

/-- A first segment that is neither empty nor a dot opens with no anchor. -/
theorem Anchor.ofText_of_plain {s : Segment} (plain : isFiller s = false) (parted : '/' ∉ s)
    (tail : List Char) : Anchor.ofText (s ++ tail) = (.none, s ++ tail) := by
  cases s with
  | nil => simp [isFiller] at plain
  | cons c s =>
    rw [List.mem_cons, not_or] at parted
    rw [List.cons_append, ofText.eq_def]
    split
    · simp_all
    · simp_all [isFiller]
    · next rest text =>
      -- the slash would stand in the segment or right behind a dot
      cases s with
      | nil => simp_all [isFiller]
      | cons d s => simp_all
    · rfl

/-- What stands behind the anchor is joined from the segments. -/
theorem Anchor.Precedes.ofText_eq (h : a.Precedes segments) :
    Anchor.ofText (a.text ++ Text.joinWith '/' segments) = (a, Text.joinWith '/' segments) := by
  cases a with
  | root => rfl
  | current =>
    cases segments with
    | nil => rfl
    | cons s rest =>
      have empty : s = [] := h.current rfl s rfl
      subst empty
      cases rest <;> rfl
  | none =>
    cases segments with
    | nil => rfl
    | cons s rest =>
      have plain : isFiller s = false := h.free rfl s rfl
      have parted : '/' ∉ s := h.parted s List.mem_cons_self
      cases rest with
      | nil =>
        simpa [Anchor.text, Text.joinWith] using Anchor.ofText_of_plain plain parted []
      | cons next rest => exact Anchor.ofText_of_plain plain parted _

theorem visible_splitAtEach (text : List Char) :
    visible (match text with
      | [] => []
      | text => Text.splitAtEach '/' text) = visible (Text.splitAtEach '/' text) := by
  cases text <;> rfl

theorem visible_segments (p : Path) :
    visible p.segments = visible (Text.splitAtEach '/' (Anchor.ofText p.text.toList).2) :=
  visible_splitAtEach _

theorem anchor_render (h : a.Precedes segments) : (render a segments).anchor = a := by
  simp [anchor, render, h.ofText_eq]

theorem visible_segments_render (h : a.Precedes segments) :
    visible (render a segments).segments = visible segments := by
  rw [visible_segments, render, String.toList_ofList, h.ofText_eq]
  by_cases none : segments = []
  · subst none
    rfl
  · rw [Text.splitAtEach_joinWith none h.parted]

theorem components_render (h : a.Precedes segments) :
    (render a segments).components = a.components ++ (visible segments).map componentOf := by
  rw [components_eq, anchor_render h, visible_segments_render h]

theorem segments_of_ofText {text : List Char} (h : Anchor.ofText p.text.toList = (a, text)) :
    p.segments = [] ∨ text ≠ [] ∧ p.segments = Text.splitAtEach '/' text := by
  rw [segments, h]
  cases text with
  | nil => exact .inl rfl
  | cons c text => exact .inr ⟨List.cons_ne_nil _ _, rfl⟩

theorem Anchor.eq_of_ofText_none {text rest : List Char}
    (h : Anchor.ofText text = (.none, rest)) : rest = text := by
  rw [Anchor.ofText.eq_def] at h
  split at h <;> simp_all

theorem Anchor.head_of_ofText_current {text rest : List Char}
    (h : Anchor.ofText text = (.current, rest)) : ∀ c ∈ rest.head?, c = '/' := by
  rw [Anchor.ofText.eq_def] at h
  split at h <;> simp_all
  simp [← h]

/-- The first segment of a text that opens with no anchor. -/
theorem isFiller_of_ofText_none {text : List Char} (h : Anchor.ofText text = (.none, text))
    (some : text ≠ []) {s : Segment} {rest : List Segment}
    (pieces : Text.splitAtEach '/' text = s :: rest) : isFiller s = false := by
  have whole := Text.joinWith_splitAtEach '/' text
  rw [pieces] at whole
  by_contra filler
  rw [Bool.not_eq_false, isFiller_iff] at filler
  rw [← whole] at h some
  rcases filler with rfl | rfl <;> cases rest <;> simp [Text.joinWith, Anchor.ofText] at h some

/-- A path is written with its anchor and its segments. -/
theorem precedes_segments (p : Path) : p.anchor.Precedes p.segments := by
  obtain ⟨a, text, h⟩ : ∃ a text, Anchor.ofText p.text.toList = (a, text) := ⟨_, _, rfl⟩
  have opened : p.anchor = a := by rw [anchor, h]
  rw [opened]
  rcases segments_of_ofText h with none | ⟨some, pieces⟩
  · rw [none]
    exact ⟨by simp, by simp, by simp⟩
  · obtain ⟨first, rest, split⟩ := List.exists_cons_of_ne_nil (Text.splitAtEach_ne_nil '/' text)
    rw [pieces]
    refine ⟨fun s member => Text.notMem_of_mem_splitAtEach member, ?_, ?_⟩ <;>
      rintro rfl s head <;> obtain rfl : first = s := by simpa [split] using head
    · have slash := Anchor.head_of_ofText_current h
      cases text with
      | nil => exact absurd rfl some
      | cons c text =>
        obtain rfl : c = '/' := slash c rfl
        simp_all [Text.splitAtEach]
    · obtain rfl := Anchor.eq_of_ofText_none h
      exact isFiller_of_ofText_none h some split

/-- What is left of segments without the filler at their end. -/
theorem reverse_dropFiller_append (segments : List Segment) :
    ∃ behind, segments.reverse = (dropFiller segments).reverse ++ behind := by
  refine ⟨(segments.takeWhile isFiller).reverse, ?_⟩
  rw [← List.reverse_append, dropFiller, List.takeWhile_append_dropWhile]

theorem components_render_dropFiller (h : a.Precedes segments.reverse) :
    (render a (dropFiller segments).reverse).components =
      a.components ++ ((visible segments).map componentOf).reverse := by
  obtain ⟨behind, parts⟩ := reverse_dropFiller_append segments
  have front : a.Precedes (dropFiller segments).reverse := Anchor.Precedes.of_append (parts ▸ h)
  rw [components_render front, visible_reverse, visible_dropFiller, List.map_reverse]

theorem components_render_trimmed (h : a.Precedes segments) :
    (render a (dropFiller segments.reverse).reverse).components =
      a.components ++ (visible segments).map componentOf := by
  rw [components_render_dropFiller ((List.reverse_reverse segments).symm ▸ h), visible_reverse,
    List.map_reverse, List.reverse_reverse]

theorem mem_directoriesAbove {segments : List Segment}
    (member : dir ∈ directoriesAbove a segments) :
    a = .current ∧ dir = ⟨""⟩ ∨ ∃ front behind, segments.reverse = front ++ behind ∧
      dir = render a front := by
  induction segments with
  | nil => simp_all [directoriesAbove]
  | cons s rest ih =>
    have outer (further : dir ∈ directoriesAbove a rest) : a = .current ∧ dir = ⟨""⟩ ∨
        ∃ front behind, (s :: rest).reverse = front ++ behind ∧ dir = render a front := by
      rcases ih further with empty | ⟨front, behind, parts, rfl⟩
      · exact .inl empty
      · exact .inr ⟨front, behind ++ [s], by simp [parts], rfl⟩
    rw [directoriesAbove] at member
    split at member
    · exact outer member
    · rcases List.mem_cons.1 member with rfl | further
      · obtain ⟨behind, parts⟩ := reverse_dropFiller_append rest
        exact .inr ⟨_, behind ++ [s], by simp [parts], rfl⟩
      · exact outer further

/-- The components of the directories above segments that are listed last first. -/
theorem map_components_directoriesAbove (h : a.Precedes segments.reverse) :
    (directoriesAbove a segments).map components =
      ((visible segments).tails.tail.map fun names =>
        a.components ++ (names.map componentOf).reverse) ++
        if a = .current then [[]] else [] := by
  induction segments with
  | nil => by_cases current : a = .current <;> (simp [directoriesAbove, current]; try rfl)
  | cons s rest ih =>
    rw [List.reverse_cons] at h
    by_cases filler : isFiller s = true
    · rw [directoriesAbove, if_pos filler, ih h.of_append, visible_cons_of_filler filler]
    · have above : (visible rest).tails = visible rest :: (visible rest).tails.tail := by
        cases visible rest <;> rfl
      rw [directoriesAbove, if_neg filler, List.map_cons, ih h.of_append,
        components_render_dropFiller h.of_append,
        visible_cons_of_plain (eq_false_of_ne_true filler), List.tails_cons,
        List.tail_cons, above]
      simp

theorem map_reverse_tail_tails {α : Type} (l : List α) :
    l.reverse.tails.tail.map List.reverse = l.inits.dropLast.reverse := by
  rw [List.tails_reverse, List.tail_reverse, List.map_reverse, ← List.map_dropLast, List.map_map]
  simp

/-- What a list with a first element starts with, longest first and the whole apart. -/
theorem reverse_dropLast_inits_cons {α : Type} (a : α) (l : List α) :
    (a :: l).inits.dropLast.reverse = l.inits.dropLast.reverse.map (a :: ·) ++ [[]] := by
  have some : l.inits.map (a :: ·) ≠ [] := by cases l <;> simp
  rw [List.inits_cons, List.dropLast_cons_of_ne_nil some, List.reverse_cons, List.map_reverse,
    List.map_dropLast]

/-- The directories are what the components start with, nearest first. An absolute path lies in no
directory without components. -/
theorem map_components_directories (p : Path) :
    p.directories.map components =
      p.components.inits.dropLast.reverse.filter fun front =>
        p.anchor ≠ .root || front ≠ [] := by
  have h : p.anchor.Precedes p.segments.reverse.reverse := by
    rw [List.reverse_reverse]
    exact precedes_segments p
  have fronts : ((visible p.segments.reverse).tails.tail.map fun names =>
      p.anchor.components ++ (names.map componentOf).reverse) =
        ((visible p.segments).map componentOf).inits.dropLast.reverse.map
          (p.anchor.components ++ ·) := by
    rw [← map_reverse_tail_tails, visible_reverse, ← List.map_reverse, List.map_tails,
      ← List.map_tail, List.map_map, List.map_map]
    rfl
  rw [directories, map_components_directoriesAbove h, components_eq, fronts]
  cases p.anchor with
  | none => simp [Anchor.components]
  | root =>
    rw [Anchor.components, List.singleton_append, reverse_dropLast_inits_cons,
      List.filter_append, List.filter_map]
    simp [Function.comp_def]
  | current =>
    rw [Anchor.components, List.singleton_append, reverse_dropLast_inits_cons]
    simp

theorem isFiller_of_dropFiller {s : Segment} {rest : List Segment}
    (h : dropFiller segments = s :: rest) : isFiller s = false := by
  have head := List.head?_dropWhile_not isFiller segments
  rwa [← dropFiller, h] at head

/-- The name of a path is its last component, if that is a name. -/
theorem fileName_eq_some_iff {name : String} :
    p.fileName = some name ↔ p.components.getLast? = some (.name name) := by
  have shown : visible p.segments = (visible (dropFiller p.segments.reverse)).reverse := by
    rw [visible_dropFiller, visible_reverse, List.reverse_reverse]
  rw [fileName, components_eq, shown]
  cases last : dropFiller p.segments.reverse with
  | nil => cases p.anchor <;> simp [Anchor.components]
  | cons s rest =>
    rw [visible_cons_of_plain (isFiller_of_dropFiller last), List.reverse_cons, List.map_append,
      ← List.append_assoc, List.map_singleton, List.getLast?_concat]
    by_cases up : s = ['.', '.'] <;> simp [componentOf, up]

theorem mem_reverse_dropLast_inits {α : Type} {front l : List α} :
    front ∈ l.inits.dropLast.reverse ↔ ∃ a rest, l = front ++ a :: rest := by
  induction l generalizing front with
  | nil => simp
  | cons b l ih =>
    rw [reverse_dropLast_inits_cons, List.mem_append, List.mem_map]
    cases front with
    | nil => simp
    | cons c front => simp [ih, eq_comm, and_comm]

theorem mem_dropLast_iff {α : Type} {a : α} {l : List α} :
    a ∈ l.dropLast ↔ ∃ front b rest, l = front ++ b :: rest ∧ front.getLast? = some a := by
  constructor
  · intro member
    rcases List.eq_nil_or_concat' l with rfl | ⟨init, last, rfl⟩
    · simp at member
    · rw [List.dropLast_concat] at member
      obtain ⟨front, rest, rfl⟩ := List.append_of_mem member
      refine ⟨front ++ [a], (rest ++ [last]).head (by simp), (rest ++ [last]).tail, ?_,
        List.getLast?_concat⟩
      rw [List.cons_head_tail]
      simp
  · rintro ⟨front, b, rest, rfl, last⟩
    rw [List.dropLast_append_of_ne_nil (List.cons_ne_nil b rest)]
    exact List.mem_append_left _ (List.mem_of_getLast? last)

/-- The names of the directories are the names before the last component. -/
theorem exists_directory_named_iff {M : String → Prop} :
    (∃ dir ∈ p.directories, ∃ name, dir.fileName = some name ∧ M name) ↔
      ∃ name, .name name ∈ p.components.dropLast ∧ M name := by
  constructor
  · rintro ⟨dir, member, name, named, holds⟩
    have front : dir.components ∈ p.directories.map components := List.mem_map_of_mem member
    rw [map_components_directories, List.mem_filter, mem_reverse_dropLast_inits] at front
    obtain ⟨⟨b, rest, parts⟩, -⟩ := front
    exact ⟨name, mem_dropLast_iff.2 ⟨_, b, rest, parts, fileName_eq_some_iff.1 named⟩, holds⟩
  · rintro ⟨name, member, holds⟩
    obtain ⟨front, b, rest, parts, last⟩ := mem_dropLast_iff.1 member
    have some : front ≠ [] := by
      rintro rfl
      simp at last
    have above : front ∈ p.directories.map components := by
      rw [map_components_directories, List.mem_filter, mem_reverse_dropLast_inits]
      exact ⟨⟨b, rest, parts⟩, by simp [some]⟩
    obtain ⟨dir, member, rfl⟩ := List.mem_map.1 above
    exact ⟨dir, member, name, fileName_eq_some_iff.2 last, holds⟩

theorem exists_of_name_mem {name : String} (member : .name name ∈ p.components) :
    ∃ s, String.ofList s = name ∧ '/' ∉ s ∧ isFiller s = false ∧ componentOf s = .name name := by
  rw [components_eq, List.mem_append] at member
  rcases member with anchored | shown
  · cases opened : p.anchor <;> simp [opened, Anchor.components] at anchored
  · obtain ⟨s, inside, same⟩ := List.mem_map.1 shown
    have parts := List.mem_filter.1 inside
    refine ⟨s, ?_, (precedes_segments p).parted s parts.1, by simpa using parts.2, same⟩
    rw [componentOf] at same
    split at same
    · cases same
    · exact Component.name.inj same

/-- A name that ends a path can stand in a directory. -/
theorem exists_deeper {name : String} (last : p.components.getLast? = some (.name name)) :
    ∃ q : Path, q.components = [.name "a", .name name] := by
  obtain ⟨s, rfl, parted, plain, component⟩ := exists_of_name_mem (List.mem_of_getLast? last)
  have free : Anchor.none.Precedes [['a'], s] := ⟨by simp [parted], nofun, by simp [isFiller]⟩
  refine ⟨render .none [['a'], s], ?_⟩
  rw [components_render free, visible_cons_of_plain (by decide), visible_cons_of_plain plain,
    visible_nil, List.map_cons, List.map_cons, component]
  rfl

theorem exists_passSegments {names : List Segment} (h : names <+: visible segments) :
    ∃ behind, passSegments names segments = some behind ∧ behind <:+ segments ∧
      visible segments = names ++ visible behind := by
  induction segments generalizing names with
  | nil =>
    obtain rfl : names = [] := List.prefix_nil.1 h
    exact ⟨[], rfl, List.suffix_rfl, rfl⟩
  | cons s rest ih =>
    cases names with
    | nil => exact ⟨s :: rest, rfl, List.suffix_rfl, rfl⟩
    | cons name names =>
      by_cases filler : isFiller s = true
      · rw [visible_cons_of_filler filler] at h ⊢
        obtain ⟨behind, passed, part, parts⟩ := ih h
        exact ⟨behind, by rw [passSegments, if_pos filler, passed], part.trans (List.suffix_cons ..),
          parts⟩
      · rw [visible_cons_of_plain (eq_false_of_ne_true filler)] at h ⊢
        obtain ⟨rfl, onward⟩ := List.cons_prefix_cons.1 h
        obtain ⟨behind, passed, part, parts⟩ := ih onward
        exact ⟨behind, by rw [passSegments, if_neg filler, if_pos rfl, passed],
          part.trans (List.suffix_cons ..), by rw [parts, List.cons_append]⟩

/-- Every directory of a path is passed on the way to it. -/
theorem exists_relativeTo (member : dir ∈ p.directories) : ∃ relative,
    p.relativeTo dir = some relative ∧ p.components = dir.components ++ relative.components := by
  by_cases empty : dir.components.isEmpty = true
  · refine ⟨_, by rw [relativeTo, if_pos empty], ?_⟩
    rw [components_render_trimmed (precedes_segments p), List.isEmpty_iff.1 empty]
    rfl
  · rcases mem_directoriesAbove member with ⟨-, rfl⟩ | ⟨front, behind, parts, rfl⟩
    · exact absurd rfl empty
    · rw [List.reverse_reverse] at parts
      have h : p.anchor.Precedes front := (parts ▸ precedes_segments p).of_append
      have ahead : visible (render p.anchor front).segments <+: visible p.segments := by
        rw [visible_segments_render h, parts, visible_append]
        exact List.prefix_append ..
      obtain ⟨rest, passed, part, shown⟩ := exists_passSegments ahead
      have parted : ∀ s ∈ dropFiller rest, '/' ∉ s := fun s member =>
        (precedes_segments p).parted s (part.subset ((List.dropWhile_sublist _).subset member))
      have unanchored : Anchor.none.Precedes (dropFiller rest) := by
        refine ⟨parted, nofun, fun _ s head => ?_⟩
        obtain ⟨others, parts⟩ := List.head?_eq_some_iff.1 head
        exact isFiller_of_dropFiller parts
      refine ⟨render .none (dropFiller (dropFiller rest).reverse).reverse, ?_, ?_⟩
      · rw [relativeTo, if_neg empty, anchor_render h, if_neg (not_not.2 rfl), ← visible, passed]
        rfl
      · rw [components_render_trimmed unanchored, visible_dropFiller, components_render h,
          components_eq, shown, visible_segments_render h, List.map_append, List.append_assoc]
        rfl

end Path

end ConventionLint
