import ConventionLint.Proofs.Binding.Bases

/-!
# Which declarations are parts of one type

A type is what it is by its namespace, the types around it with their numbers of type parameters,
its name and the number of its own. Of all this the key of a declaration keeps the dotted text of
what is around it and its own name and number, and declarations of one key become one type.
-/
namespace ConventionLint

namespace Binding

@[ext] structure Segment where
  name : String
  arity : Nat
deriving DecidableEq, Repr

/-- What tells a type from all others. -/
@[ext] structure Identity where
  ns : Option String
  /-- The types around it, outermost first. -/
  containers : List Segment
  own : Segment
deriving DecidableEq, Repr

namespace Identity

/-- The dotted text of what is around a type. -/
def path (i : Identity) : Option String :=
  i.containers.foldl (fun outer s => some (Text.qualify outer s.name)) i.ns

def key (i : Identity) : DeclaredKey :=
  ⟨i.path, i.own.name, i.own.arity⟩

def fullName (i : Identity) : String :=
  Text.qualify i.path i.own.name

def inside (outer : Identity) (own : Segment) : Identity :=
  ⟨outer.ns, outer.containers ++ [outer.own], own⟩

theorem path_of_alone {i : Identity} (alone : i.containers = []) : i.path = i.ns := by
  rw [path, alone, List.foldl_nil]

theorem path_inside (outer : Identity) (own : Segment) :
    (outer.inside own).path = some outer.fullName := by
  rw [path, inside, List.foldl_concat]
  rfl

end Identity

/-- A declaration site with the identity of what is declared there. -/
structure Placed where
  identity : Identity
  site : Site
  key_eq : site.key = identity.key

mutual

/-- The sites of a declaration inside `containers` with their identities. -/
def placedOf (file : SourceFile) (ns : Option String) (containers : List Segment)
    (container : Option DeclaredKey) : TypeDeclaration → List Placed
  | ⟨name, kind, written, parameters, bases, members, nested, position, isPartial⟩ =>
    let identity : Identity := ⟨ns, containers, name, parameters.length⟩
    ⟨identity, ⟨identity.key, container,
      ⟨name, kind, written, parameters, bases, members, nested, position, isPartial⟩, file⟩, rfl⟩
      :: placedOfAll file ns (containers ++ [identity.own]) (some identity.key) nested

def placedOfAll (file : SourceFile) (ns : Option String) (containers : List Segment)
    (container : Option DeclaredKey) : List TypeDeclaration → List Placed
  | [] => []
  | d :: ds => placedOf file ns containers container d ++ placedOfAll file ns containers container ds

end

def placed (files : List SourceFile) : List Placed :=
  files.flatMap fun file => file.types.flatMap fun d => placedOf file d.qualifier [] none d

section

variable {file : SourceFile} {files : List SourceFile} {p q : Placed}

mutual

theorem map_site_placedOf : ∀ (i : Identity) (container : Option DeclaredKey) (d : TypeDeclaration),
    (placedOf file i.ns i.containers container d).map (·.site) = sitesOf file i.path container d
  | i, container, ⟨name, kind, written, parameters, bases, members, nested, position, isPartial⟩ => by
    let own : Identity := ⟨i.ns, i.containers, name, parameters.length⟩
    have inner := map_site_placedOfAll (own.inside own.own) (some own.key) nested
    rw [Identity.path_inside] at inner
    rw [placedOf, sitesOf, List.map_cons]
    exact congrArg (_ :: ·) inner

theorem map_site_placedOfAll : ∀ (i : Identity) (container : Option DeclaredKey)
    (ds : List TypeDeclaration),
    (placedOfAll file i.ns i.containers container ds).map (·.site)
      = sitesOfAll file i.path container ds
  | _, _, [] => rfl
  | i, container, d :: ds => by
    rw [placedOfAll, sitesOfAll, List.map_append, map_site_placedOf i container d,
      map_site_placedOfAll i container ds]

end

theorem map_site_placed (files : List SourceFile) : (placed files).map (·.site) = sites files := by
  rw [placed, sites, List.map_flatMap]
  refine List.flatMap_congr fun file _ => ?_
  rw [List.map_flatMap]
  exact List.flatMap_congr fun d _ => map_site_placedOf ⟨d.qualifier, [], ⟨"", 0⟩⟩ none d

def Placed.IsContainer (p : Placed) : Prop :=
  p.site.declaration.nested.isEmpty = false

instance (p : Placed) : Decidable p.IsContainer :=
  inferInstanceAs (Decidable (_ = false))

mutual

theorem outer_of_mem_placedOf : ∀ {ns : Option String} {containers : List Segment}
    {container : Option DeclaredKey} (d : TypeDeclaration),
    p ∈ placedOf file ns containers container d →
      (p.identity.ns = ns ∧ p.identity.containers = containers) ∨
      ∃ q ∈ placedOf file ns containers container d, q.IsContainer ∧
        p.identity = q.identity.inside p.identity.own
  | ns, containers, container, ⟨name, kind, written, parameters, bases, members, nested, position,
      isPartial⟩, member => by
    rw [placedOf] at member ⊢
    rcases List.mem_cons.1 member with rfl | inner
    · exact .inl ⟨rfl, rfl⟩
    · have listed : nested.isEmpty = false := by
        cases nested with
        | nil => cases inner
        | cons => rfl
      rcases outer_of_mem_placedOfAll nested inner with ⟨ns, around⟩ | ⟨q, among, outer⟩
      · refine .inr ⟨_, List.mem_cons_self .., listed, ?_⟩
        rw [Identity.inside, ← ns, ← around]
      · exact .inr ⟨q, List.mem_cons_of_mem _ among, outer⟩

theorem outer_of_mem_placedOfAll : ∀ {ns : Option String} {containers : List Segment}
    {container : Option DeclaredKey} (ds : List TypeDeclaration),
    p ∈ placedOfAll file ns containers container ds →
      (p.identity.ns = ns ∧ p.identity.containers = containers) ∨
      ∃ q ∈ placedOfAll file ns containers container ds, q.IsContainer ∧
        p.identity = q.identity.inside p.identity.own
  | _, _, _, [], member => by cases member
  | ns, containers, container, d :: ds, member => by
    rw [placedOfAll] at member ⊢
    rcases List.mem_append.1 member with first | later
    · refine (outer_of_mem_placedOf d first).imp_right ?_
      rintro ⟨q, among, outer⟩
      exact ⟨q, List.mem_append_left _ among, outer⟩
    · refine (outer_of_mem_placedOfAll ds later).imp_right ?_
      rintro ⟨q, among, outer⟩
      exact ⟨q, List.mem_append_right _ among, outer⟩

end

theorem outer_of_mem_placed (member : p ∈ placed files) :
    (p.identity.containers = [] ∧ ∃ file ∈ files, ∃ d ∈ file.types, d.qualifier = p.identity.ns) ∨
      ∃ q ∈ placed files, q.IsContainer ∧ p.identity = q.identity.inside p.identity.own := by
  obtain ⟨file, present, inner⟩ := List.mem_flatMap.1 member
  obtain ⟨d, declared, inner⟩ := List.mem_flatMap.1 inner
  rcases outer_of_mem_placedOf d inner with ⟨ns, around⟩ | ⟨q, among, outer⟩
  · exact .inl ⟨around, file, present, d, declared, ns.symm⟩
  · exact .inr ⟨q, List.mem_flatMap.2 ⟨file, present, List.mem_flatMap.2 ⟨d, declared, among⟩⟩,
      outer⟩

/-- No two containers differ only in what their full names leave out, and no namespace has the full
name of a container. -/
structure Unambiguous (files : List SourceFile) : Prop where
  containers : ∀ p ∈ placed files, ∀ q ∈ placed files, p.IsContainer → q.IsContainer →
    p.identity.fullName = q.identity.fullName → p.identity.key = q.identity.key
  namespaces : ∀ file ∈ files, ∀ d ∈ file.types, ∀ p ∈ placed files, p.IsContainer →
    d.qualifier ≠ some p.identity.fullName

/-- Keys tell types apart once they tell apart what types are in, container by container. -/
theorem Unambiguous.identity_eq (apart : Unambiguous files) {p q : Placed} (hp : p ∈ placed files)
    (hq : q ∈ placed files) (same : p.identity.key = q.identity.key) : p.identity = q.identity := by
  obtain ⟨paths, names, arities⟩ := DeclaredKey.mk.inj same
  have own : p.identity.own = q.identity.own := congrArg₂ Segment.mk names arities
  rcases outer_of_mem_placed hp with ⟨alone, top⟩ | ⟨o, ho, contains, outer⟩
  · rw [Identity.path_of_alone alone] at paths
    rcases outer_of_mem_placed hq with ⟨alone', -⟩ | ⟨o, ho, contains, outer⟩
    · rw [Identity.path_of_alone alone'] at paths
      exact Identity.ext paths (alone.trans alone'.symm) own
    · obtain ⟨file, present, d, declared, ns⟩ := top
      rw [outer, Identity.path_inside] at paths
      exact absurd (ns.trans paths) (apart.namespaces file present d declared o ho contains)
  · rw [outer, Identity.path_inside] at paths
    rcases outer_of_mem_placed hq with ⟨alone, top⟩ | ⟨o', ho', contains', outer'⟩
    · obtain ⟨file, present, d, declared, ns⟩ := top
      rw [Identity.path_of_alone alone] at paths
      exact absurd (ns.trans paths.symm) (apart.namespaces file present d declared o ho contains)
    · rw [outer', Identity.path_inside] at paths
      have keys := apart.containers o ho o' ho' contains contains' (Option.some.inj paths)
      have shorter : o.identity.containers.length < p.identity.containers.length := by
        rw [outer, Identity.inside]
        simp
      rw [outer, outer', apart.identity_eq ho ho' keys, own]
termination_by p.identity.containers.length

def IsPart (root : String) (files : List SourceFile) (s : Site) (t : TypeSymbol) : Prop :=
  ∃ g ∈ groupsOf files, s ∈ g.parts ∧
    declaredSymbol (keysOf root files) g (edgesIn root files g) = t

theorem site_mem_sites (member : p ∈ placed files) : p.site ∈ sites files := by
  rw [← map_site_placed]
  exact List.mem_map.2 ⟨p, member, rfl⟩

theorem exists_isPart_iff (root : String) {s s' : Site} (member : s ∈ sites files)
    (member' : s' ∈ sites files) :
    (∃ t, IsPart root files s t ∧ IsPart root files s' t) ↔ s.key = s'.key := by
  have key_of_part {g : Group} {s : Site} (among : g ∈ groupsOf files) (part : s ∈ g.parts) :
      s.key = g.key := by
    rw [parts_of_mem_groups among] at part
    exact of_decide_eq_true (List.mem_filter.1 part).2
  constructor
  · rintro ⟨t, ⟨g, among, part, rfl⟩, ⟨h, among', part', same⟩⟩
    have keys := congrArg declaredKeyOf same
    rw [declaredKeyOf_declaredSymbol among, declaredKeyOf_declaredSymbol among'] at keys
    rw [key_of_part among part, key_of_part among' part', keys]
  · intro same
    obtain ⟨g, among, key⟩ :=
      List.mem_map.1 (mem_map_key_groups.2 (List.mem_map.2 ⟨s, member, rfl⟩))
    have part {s' : Site} (member : s' ∈ sites files) (named : s'.key = g.key) : s' ∈ g.parts := by
      rw [parts_of_mem_groups among]
      exact List.mem_filter.2 ⟨member, decide_eq_true named⟩
    exact ⟨_, ⟨g, among, part member key.symm, rfl⟩,
      ⟨g, among, part member' (same.symm.trans key.symm), rfl⟩⟩

end

end Binding

open Binding

/-- Declarations become parts of one type when the dotted text around them, their names and their
own numbers of type parameters agree. That makes them declarations of one type unless two containers
have one full name, by being generic or not, or a namespace has that of a container. -/
theorem Compilation.build_parts (root : String) (files : List SourceFile) :
    (∀ p ∈ placed files, ∀ q ∈ placed files,
      ((∃ t, IsPart root files p.site t ∧ IsPart root files q.site t) ↔
        p.identity.path = q.identity.path ∧ p.identity.own = q.identity.own)) ∧
    (Unambiguous files → ∀ p ∈ placed files, ∀ q ∈ placed files,
      ((∃ t, IsPart root files p.site t ∧ IsPart root files q.site t) ↔
        p.identity = q.identity)) := by
  have one {p q : Placed} (hp : p ∈ placed files) (hq : q ∈ placed files) :
      (∃ t, IsPart root files p.site t ∧ IsPart root files q.site t) ↔
        p.identity.key = q.identity.key := by
    rw [exists_isPart_iff root (site_mem_sites hp) (site_mem_sites hq), p.key_eq, q.key_eq]
  refine ⟨fun p hp q hq => ?_, fun apart p hp q hq => ?_⟩
  · rw [one hp hq, Identity.key, Identity.key, DeclaredKey.mk.injEq, Segment.ext_iff]
  · rw [one hp hq]
    exact ⟨apart.identity_eq hp hq, fun same => same ▸ rfl⟩

namespace Binding

def inner : TypeDeclaration :=
  ⟨"Inner", .plainClass, none, [], [], [], [], ⟨1, 1⟩, false⟩

def outer (parameters : List String) (nested : List TypeDeclaration) : TypeDeclaration :=
  ⟨"Outer", .plainClass, none, parameters, [], [], nested, ⟨1, 1⟩, false⟩

def outerFile (generic : List TypeDeclaration) : SourceFile :=
  ⟨⟨"a.cs"⟩, [], [], [outer [] [inner], outer ["T"] generic]⟩

end Binding

/-- Only one of two containers of the same full name may hold others. -/
theorem Compilation.build_parts_outer : Unambiguous [outerFile []] ∧
    ∀ p ∈ placed [outerFile []], ∀ q ∈ placed [outerFile []],
      ((∃ t, IsPart "System.Object" [outerFile []] p.site t ∧
        IsPart "System.Object" [outerFile []] q.site t) ↔ p.identity = q.identity) := by
  have apart : Unambiguous [outerFile []] := ⟨by decide, by decide⟩
  exact ⟨apart, (build_parts "System.Object" [outerFile []]).2 apart⟩

/-- The equally named types inside a generic container and one that is not become one. -/
theorem Compilation.nested_types_merged : ¬ ∀ (root : String) (files : List SourceFile),
    ∀ p ∈ placed files, ∀ q ∈ placed files,
      (∃ t, IsPart root files p.site t ∧ IsPart root files q.site t) → p.identity = q.identity := by
  intro claim
  let p := (placed [outerFile [inner]]).get ⟨1, by decide⟩
  let q := (placed [outerFile [inner]]).get ⟨3, by decide⟩
  have hp : p ∈ placed [outerFile [inner]] := List.get_mem ..
  have hq : q ∈ placed [outerFile [inner]] := List.get_mem ..
  have merged := (exists_isPart_iff "System.Object" (site_mem_sites hp) (site_mem_sites hq)).2
    (show p.site.key = q.site.key by decide)
  exact absurd (claim "System.Object" _ p hp q hq merged) (by decide)

end ConventionLint
