import ConventionLint.Binding.Site
import Mathlib.Data.List.Induction
import Mathlib.Data.List.Nodup

/-!
# Groups of declaration sites

Sites of one key are parts of one type. A group holds all sites of its key in their order, no two
groups have the same key, and groups stand in the order in which their keys first occur.
-/
namespace ConventionLint.Binding

variable {gs : List Group} {g : Group} {s : Site} {ss : List Site}

def Site.Keyed (s : Site) : Prop :=
  s.key = ⟨s.key.qualifier, s.declaration.name, s.declaration.typeParameters.length⟩

mutual

theorem of_mem_sitesOf {file : SourceFile} : ∀ (qualifier : Option String)
    (container : Option DeclaredKey) (d : TypeDeclaration),
    ∀ s ∈ sitesOf file qualifier container d, s.Keyed ∧ s.file = file
  | _, _, ⟨_, _, _, _, _, _, nested, _, _⟩ => by
    intro s member
    rw [sitesOf] at member
    rcases List.mem_cons.1 member with rfl | inner
    · exact ⟨rfl, rfl⟩
    · exact of_mem_sitesOfAll _ _ nested s inner

theorem of_mem_sitesOfAll {file : SourceFile} : ∀ (qualifier : Option String)
    (container : Option DeclaredKey) (ds : List TypeDeclaration),
    ∀ s ∈ sitesOfAll file qualifier container ds, s.Keyed ∧ s.file = file
  | _, _, [] => by simp [sitesOfAll]
  | qualifier, container, d :: ds => by
    intro s member
    rw [sitesOfAll] at member
    rcases List.mem_append.1 member with first | later
    · exact of_mem_sitesOf qualifier container d s first
    · exact of_mem_sitesOfAll qualifier container ds s later

end

theorem of_mem_sites {files : List SourceFile} (member : s ∈ sites files) :
    s.Keyed ∧ s.file ∈ files := by
  obtain ⟨file, present, inner⟩ := List.mem_flatMap.1 member
  obtain ⟨d, -, inner⟩ := List.mem_flatMap.1 inner
  obtain ⟨keyed, rfl⟩ := of_mem_sitesOf _ _ d s inner
  exact ⟨keyed, present⟩

theorem groups_concat (ss : List Site) (s : Site) : groups (ss ++ [s]) = addSite s (groups ss) := by
  simp [groups]

def addKey (keys : List DeclaredKey) (key : DeclaredKey) : List DeclaredKey :=
  if key ∈ keys then keys else keys ++ [key]

theorem map_key_addSite (s : Site) (gs : List Group) :
    (addSite s gs).map (·.key) = addKey (gs.map (·.key)) s.key := by
  induction gs with
  | nil => rfl
  | cons g gs ih =>
    rw [addSite, addKey]
    by_cases same : g.key = s.key
    · rw [if_pos same, if_pos (by simp [same])]
      rfl
    · rw [if_neg same, List.map_cons, ih, addKey]
      by_cases known : s.key ∈ gs.map (·.key)
      · rw [if_pos known, if_pos (by simpa using .inr (by simpa using known))]
        rfl
      · rw [if_neg known, if_neg (by simpa [Ne.symm same] using known)]
        rfl

theorem mem_map_key_groups {key : DeclaredKey} :
    key ∈ (groups ss).map (·.key) ↔ key ∈ ss.map (·.key) := by
  induction ss using List.reverseRecOn with
  | nil => rfl
  | append_singleton ss s ih =>
    rw [groups_concat, map_key_addSite, addKey, List.map_append, List.mem_append, ← ih]
    split
    · next known =>
      constructor
      · exact .inl
      · rintro (old | new)
        · exact old
        · exact List.mem_singleton.1 new ▸ known
    · rw [List.mem_append, List.map_singleton]

theorem groups_nodup (ss : List Site) : ((groups ss).map (·.key)).Nodup := by
  induction ss using List.reverseRecOn with
  | nil => exact List.nodup_nil
  | append_singleton ss s ih =>
    rw [groups_concat, map_key_addSite, addKey]
    split
    · exact ih
    · next unknown => exact List.nodup_append_comm.1 (List.nodup_cons.2 ⟨unknown, ih⟩)

def Group.map (f : Site → Site) (g : Group) : Group :=
  ⟨g.key, f g.first, g.further.map f⟩

section

variable {f : Site → Site} (keeps : ∀ s, (f s).key = s.key)
include keeps

theorem addSite_map (s : Site) (gs : List Group) :
    addSite (f s) (gs.map (Group.map f)) = (addSite s gs).map (Group.map f) := by
  induction gs with
  | nil =>
    rw [List.map_nil, addSite, addSite, keeps]
    rfl
  | cons g gs ih =>
    rw [List.map_cons, addSite, addSite, keeps]
    by_cases same : g.key = s.key
    · rw [if_pos same, if_pos (show (g.map f).key = s.key from same)]
      simp [Group.map]
    · rw [if_neg same, if_neg (show ¬ (g.map f).key = s.key from same), ih, List.map_cons]

/-- Sites of the same keys are grouped alike. -/
theorem groups_map (ss : List Site) : groups (ss.map f) = (groups ss).map (Group.map f) := by
  induction ss using List.reverseRecOn with
  | nil => rfl
  | append_singleton ss s ih =>
    rw [List.map_append, List.map_singleton, groups_concat, groups_concat, ih, addSite_map keeps]

end

/-- A group after a site was added: the one of its key has one part more. -/
theorem of_mem_addSite (distinct : (gs.map (·.key)).Nodup) (member : g ∈ addSite s gs) :
    (g ∈ gs ∧ g.key ≠ s.key) ∨
    (∃ h ∈ gs, h.key = s.key ∧ g = { h with further := h.further ++ [s] }) ∨
    ((∀ h ∈ gs, h.key ≠ s.key) ∧ g = ⟨s.key, s, []⟩) := by
  induction gs with
  | nil => exact .inr (.inr ⟨by simp, List.mem_singleton.1 member⟩)
  | cons h gs ih =>
    rw [List.map_cons, List.nodup_cons] at distinct
    rw [addSite] at member
    by_cases same : h.key = s.key
    · rw [if_pos same] at member
      rcases List.mem_cons.1 member with rfl | later
      · exact .inr (.inl ⟨h, by simp, same, rfl⟩)
      · refine .inl ⟨List.mem_cons_of_mem _ later, fun equal => distinct.1 ?_⟩
        exact List.mem_map.2 ⟨g, later, equal.trans same.symm⟩
    · rw [if_neg same] at member
      rcases List.mem_cons.1 member with rfl | later
      · exact .inl ⟨by simp, same⟩
      · rcases ih distinct.2 later with ⟨old, other⟩ | ⟨k, old, equal, rfl⟩ | ⟨none, rfl⟩
        · exact .inl ⟨List.mem_cons_of_mem _ old, other⟩
        · exact .inr (.inl ⟨k, List.mem_cons_of_mem _ old, equal, rfl⟩)
        · exact .inr (.inr ⟨by simpa [same] using none, rfl⟩)

/-- The parts of a type are all the sites of its key, in their order. -/
theorem parts_of_mem_groups (member : g ∈ groups ss) : g.parts = ss.filter (·.key = g.key) := by
  induction ss using List.reverseRecOn generalizing g with
  | nil => cases member
  | append_singleton ss s ih =>
    rw [groups_concat] at member
    rw [List.filter_append]
    rcases of_mem_addSite (groups_nodup ss) member with
      ⟨old, other⟩ | ⟨h, old, same, rfl⟩ | ⟨none, rfl⟩
    · simp [ih old, Ne.symm other]
    · have before : h.first :: h.further = ss.filter (·.key = h.key) := ih old
      simp only [Group.parts, same, decide_true, List.filter_cons_of_pos, List.filter_nil]
      rw [← List.cons_append, before, same]
    · have unknown : ss.filter (·.key = s.key) = [] := by
        rw [List.filter_eq_nil_iff]
        intro site present equal
        obtain ⟨h, found, key⟩ := List.mem_map.1
          (mem_map_key_groups.2 (List.mem_map.2 ⟨site, present, of_decide_eq_true equal⟩))
        exact none h found key
      simp [Group.parts, unknown]

theorem first_of_mem_groups (member : g ∈ groups ss) : g.first ∈ ss ∧ g.first.key = g.key := by
  have first : g.first ∈ g.parts := List.mem_cons_self ..
  rw [parts_of_mem_groups member, List.mem_filter] at first
  exact ⟨first.1, of_decide_eq_true first.2⟩

theorem eq_of_mem_groups {h : Group} (hg : g ∈ groups ss) (hh : h ∈ groups ss)
    (same : g.key = h.key) : g = h :=
  List.inj_on_of_nodup_map (groups_nodup ss) hg hh same

theorem basePart_mem_parts (g : Group) : g.basePart ∈ g.parts := by
  rw [Group.basePart]
  cases found : g.parts.find? (!·.declaration.baseList.isEmpty) with
  | none => exact List.mem_cons_self ..
  | some part => exact List.mem_of_find?_eq_some found

theorem basePart_of_mem_groups (member : g ∈ groups ss) :
    g.basePart ∈ ss ∧ g.basePart.key = g.key := by
  have part := basePart_mem_parts g
  rw [parts_of_mem_groups member, List.mem_filter] at part
  exact ⟨part.1, of_decide_eq_true part.2⟩

theorem find?_groups (member : g ∈ groups ss) : (groups ss).find? (·.key = g.key) = some g := by
  cases found : (groups ss).find? (·.key = g.key) with
  | none => exact absurd (by simp) (List.find?_eq_none.1 found g member)
  | some h =>
    have same : h.key = g.key := by simpa using List.find?_some found
    rw [eq_of_mem_groups (List.mem_of_find?_eq_some found) member same]

/-- Types of one part each, when no key occurs twice. -/
theorem groups_of_nodup (distinct : (ss.map (·.key)).Nodup) :
    groups ss = ss.map fun s => ⟨s.key, s, []⟩ := by
  induction ss using List.reverseRecOn with
  | nil => rfl
  | append_singleton ss s ih =>
    rw [List.map_append, List.nodup_append] at distinct
    have unknown : ∀ gs : List Group, (∀ g ∈ gs, g.key ≠ s.key) →
        addSite s gs = gs ++ [⟨s.key, s, []⟩] := by
      intro gs others
      induction gs with
      | nil => rfl
      | cons g gs ih =>
        rw [addSite, if_neg (others g (by simp)),
          ih fun h member => others h (List.mem_cons_of_mem _ member)]
        rfl
    rw [groups_concat, ih distinct.1, unknown, List.map_append]
    · rfl
    · intro g member
      obtain ⟨site, present, rfl⟩ := List.mem_map.1 member
      exact distinct.2.2 _ (List.mem_map.2 ⟨site, present, rfl⟩) _ (by simp)

end ConventionLint.Binding
