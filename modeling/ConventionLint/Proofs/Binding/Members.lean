import ConventionLint.Proofs.Binding.Graph
import Mathlib.Algebra.Ring.Nat

/-!
# The members of a compilation

The parts of the declared types are the declarations that were written, nested ones included, each
once. So the members of the types are those of the declarations, and storage is the only thing that
comes with them unwritten.
-/
namespace ConventionLint

mutual

/-- A declaration and those nested in it, as they are written. -/
def TypeDeclaration.withNested : TypeDeclaration → List TypeDeclaration
  | ⟨name, kind, written, parameters, bases, members, nested, position, isPartial⟩ =>
    ⟨name, kind, written, parameters, bases, members, nested, position, isPartial⟩
      :: TypeDeclaration.allWithNested nested

def TypeDeclaration.allWithNested : List TypeDeclaration → List TypeDeclaration
  | [] => []
  | d :: ds => d.withNested ++ TypeDeclaration.allWithNested ds

end

mutual

theorem TypeDeclaration.length_withNested : ∀ d : TypeDeclaration, d.withNested.length = d.count
  | ⟨_, _, _, _, _, _, nested, _, _⟩ => by
    rw [withNested, List.length_cons, length_allWithNested nested, count, Nat.add_comm]

theorem TypeDeclaration.length_allWithNested : ∀ ds : List TypeDeclaration,
    (allWithNested ds).length = countAll ds
  | [] => rfl
  | d :: ds => by
    rw [allWithNested, List.length_append, length_withNested d, length_allWithNested ds, countAll]

end

theorem TypeDeclaration.allWithNested_eq_flatMap (ds : List TypeDeclaration) :
    allWithNested ds = ds.flatMap withNested := by
  induction ds with
  | nil => rfl
  | cons d ds ih => rw [allWithNested, ih, List.flatMap_cons]

namespace Binding

def declarationsIn (files : List SourceFile) : List (SourceFile × TypeDeclaration) :=
  files.flatMap fun file => (TypeDeclaration.allWithNested file.types).map (file, ·)

theorem length_declarationsIn (files : List SourceFile) :
    (declarationsIn files).length = (files.map SourceFile.typeCount).sum := by
  rw [declarationsIn, List.length_flatMap]
  congr 1
  refine List.map_congr_left fun file _ => ?_
  rw [List.length_map, TypeDeclaration.length_allWithNested, SourceFile.typeCount]

def Site.written (s : Site) : SourceFile × TypeDeclaration :=
  (s.file, s.declaration)

mutual

theorem written_sitesOf {file : SourceFile} : ∀ (qualifier : Option String)
    (container : Option DeclaredKey) (d : TypeDeclaration),
    (sitesOf file qualifier container d).map Site.written = d.withNested.map (file, ·)
  | qualifier, container, ⟨name, kind, written, parameters, bases, members, nested, position,
      isPartial⟩ => by
    rw [sitesOf, List.map_cons, written_sitesOfAll, TypeDeclaration.withNested, List.map_cons]
    rfl

theorem written_sitesOfAll {file : SourceFile} : ∀ (qualifier : Option String)
    (container : Option DeclaredKey) (ds : List TypeDeclaration),
    (sitesOfAll file qualifier container ds).map Site.written
      = (TypeDeclaration.allWithNested ds).map (file, ·)
  | _, _, [] => rfl
  | qualifier, container, d :: ds => by
    rw [sitesOfAll, List.map_append, written_sitesOf, written_sitesOfAll,
      TypeDeclaration.allWithNested, List.map_append]

end

/-- Every declaration has its site, in the order in which they are written. -/
theorem written_sites (files : List SourceFile) :
    (sites files).map Site.written = declarationsIn files := by
  rw [sites, List.map_flatMap, declarationsIn]
  refine List.flatMap_congr fun file _ => ?_
  rw [TypeDeclaration.allWithNested_eq_flatMap, List.map_flatMap, List.map_flatMap]
  exact List.flatMap_congr fun d _ => written_sitesOf d.qualifier none d

theorem parts_addSite (s : Site) (gs : List Group) :
    ((addSite s gs).flatMap Group.parts).Perm (gs.flatMap Group.parts ++ [s]) := by
  induction gs with
  | nil => exact .refl _
  | cons g gs ih =>
    rw [addSite]
    split
    · have joined : Group.parts { g with further := g.further ++ [s] } = g.parts ++ [s] := rfl
      rw [List.flatMap_cons, List.flatMap_cons, joined, List.append_assoc, List.append_assoc]
      exact List.perm_append_comm.append_left g.parts
    · rw [List.flatMap_cons, List.flatMap_cons, List.append_assoc]
      exact ih.append_left g.parts

/-- Every site is a part of one type. -/
theorem parts_groups (ss : List Site) : ((groups ss).flatMap Group.parts).Perm ss := by
  induction ss using List.reverseRecOn with
  | nil => exact .refl _
  | append_singleton ss s ih =>
    rw [groups_concat]
    exact (parts_addSite s (groups ss)).trans (ih.append_right [s])

theorem sum_length_parts (files : List SourceFile) :
    ((groupsOf files).map (·.parts.length)).sum = (files.map SourceFile.typeCount).sum := by
  rw [← length_declarationsIn, ← written_sites, List.length_map,
    ← (parts_groups (sites files)).length_eq, List.length_flatMap]
  rfl

structure WrittenMember where
  path : Path
  declaration : MemberDeclaration

namespace WrittenMember

def symbols (m : WrittenMember) : List MemberSymbol :=
  memberSymbols m.path m.declaration

def isAuto (m : WrittenMember) : Bool :=
  match m.declaration.kind with
  | .property _ auto => auto
  | .field | .method => false

def location (m : WrittenMember) : Location :=
  ⟨m.path, m.declaration.position.line, m.declaration.position.column⟩

def symbol (m : WrittenMember) (kind : MemberKind) : MemberSymbol :=
  ⟨m.declaration.name, kind, m.declaration.accessibility, some m.location, false⟩

/-- The storage of an auto-implemented property, which stands nowhere. -/
def storage (m : WrittenMember) : MemberSymbol :=
  ⟨"<" ++ m.declaration.name ++ ">k__BackingField", .field, .privateAccess, none, true⟩

variable {m : WrittenMember}

/-- A member has its symbol, and behind it its storage when it is auto-implemented. -/
theorem symbols_eq (m : WrittenMember) :
    ∃ kind, m.symbols = m.symbol kind :: if m.isAuto then [m.storage] else [] := by
  obtain ⟨path, name, kind, accessibility, position⟩ := m
  cases kind with
  | property setter auto => cases auto <;> exact ⟨.property setter, rfl⟩
  | field => exact ⟨.field, rfl⟩
  | method => exact ⟨.method, rfl⟩

theorem symbols_of_auto {setter : Option Setter}
    (auto : m.declaration.kind = .property setter true) :
    m.symbols = [m.symbol (.property setter), m.storage] := by
  obtain ⟨path, name, kind, accessibility, position⟩ := m
  obtain rfl : kind = .property setter true := auto
  rfl

theorem filter_implicit_symbols (m : WrittenMember) :
    m.symbols.filter (·.implicit) = if m.isAuto then [m.storage] else [] := by
  obtain ⟨kind, split⟩ := m.symbols_eq
  rw [split]
  cases m.isAuto <;> rfl

/-- The only unwritten members are the storages. -/
theorem filter_implicit_flatMap_symbols (ms : List WrittenMember) :
    (ms.flatMap symbols).filter (·.implicit) = (ms.filter (·.isAuto)).map storage := by
  induction ms with
  | nil => rfl
  | cons m ms ih =>
    rw [List.flatMap_cons, List.filter_append, filter_implicit_symbols, ih, List.filter_cons]
    cases m.isAuto <;> rfl

/-- What stands first was written. -/
theorem implicit_of_head? {ms : List WrittenMember} {s : MemberSymbol}
    (first : (ms.flatMap symbols).head? = some s) : s.implicit = false := by
  cases ms with
  | nil => cases first
  | cons m ms =>
    obtain ⟨kind, split⟩ := m.symbols_eq
    rw [List.flatMap_cons, split] at first
    exact Option.some.inj first ▸ rfl

end WrittenMember

def membersIn (p : SourceFile × TypeDeclaration) : List WrittenMember :=
  p.2.members.map (⟨p.1.path, ·⟩)

def Group.writtenMembers (g : Group) : List WrittenMember :=
  g.parts.flatMap fun part => membersIn part.written

theorem members_eq (g : Group) : g.members = g.writtenMembers.flatMap WrittenMember.symbols := by
  rw [Group.members, Group.writtenMembers, List.flatMap_assoc]
  refine List.flatMap_congr fun part _ => ?_
  rw [membersIn, List.flatMap_map]
  rfl

/-- A type that is merged from parts. They are the declarations of its key, as they are written, and
their members are its members. Every auto-implemented property has its storage behind it and nothing
else is unwritten. -/
structure Merged (files : List SourceFile) (t : TypeSymbol) (g : Group) : Prop where
  key : g.key = ⟨t.qualifier, t.name, t.typeParameters.length⟩
  parts : g.parts = (sites files).filter (·.key = g.key)
  members : t.members = g.writtenMembers.flatMap WrittenMember.symbols
  stored : ∀ before m behind setter, g.writtenMembers = before ++ m :: behind →
    m.declaration.kind = .property setter true →
      t.members = before.flatMap WrittenMember.symbols ++
        m.symbol (.property setter) :: m.storage :: behind.flatMap WrittenMember.symbols ∧
      ∀ s, (behind.flatMap WrittenMember.symbols).head? = some s → s.implicit = false
  implicit : t.members.filter (·.implicit)
    = (g.writtenMembers.filter (·.isAuto)).map WrittenMember.storage

theorem merged_declaredSymbol {files : List SourceFile} {g : Group} (member : g ∈ groupsOf files)
    (keys : List SymbolKey) (edges : Edges) : Merged files (declaredSymbol keys g edges) g := by
  have members : (declaredSymbol keys g edges).members
      = g.writtenMembers.flatMap WrittenMember.symbols := members_eq g
  constructor
  case key =>
    obtain ⟨present, same⟩ := first_of_mem_groups member
    have keyed := (of_mem_sites present).1
    rw [Site.Keyed, same] at keyed
    exact congrArg (fun arity => (⟨g.key.qualifier, g.key.name, arity⟩ : DeclaredKey))
      (congrArg DeclaredKey.arity keyed)
  case parts => exact parts_of_mem_groups member
  case members => exact members
  case stored =>
    intro before m behind setter split auto
    refine ⟨?_, fun s first => WrittenMember.implicit_of_head? first⟩
    rw [members, split, List.flatMap_append, List.flatMap_cons, WrittenMember.symbols_of_auto auto]
    rfl
  case implicit => rw [members, WrittenMember.filter_implicit_flatMap_symbols]

end Binding

open Binding in
/-- Binding neither loses nor doubles a member: the declared types have the symbols of all members
that are written. Each type is merged from the declarations of its key, which have sites in the
order they are written, and all types together have as many parts as the files have declarations. -/
theorem Compilation.members_build (root : String) (files : List SourceFile) :
    ((Compilation.build root files).declaredTypes.flatMap (·.members)).Perm
        (((declarationsIn files).flatMap membersIn).flatMap WrittenMember.symbols) ∧
      (sites files).map Site.written = declarationsIn files ∧
      List.Forall₂ (Merged files) (Compilation.build root files).declaredTypes (groupsOf files) ∧
      ((groupsOf files).map (·.parts.length)).sum = (files.map SourceFile.typeCount).sum := by
  refine ⟨?_, written_sites files, ?_, sum_length_parts files⟩
  · have perm := ((parts_groups (sites files)).map Site.written).flatMap_right membersIn
    rw [written_sites] at perm
    rw [declaredTypes_build, List.flatMap_map]
    refine .trans (.of_eq ?_) (perm.flatMap_right WrittenMember.symbols)
    rw [List.map_flatMap, List.flatMap_assoc, List.flatMap_assoc]
    refine List.flatMap_congr fun g _ => ?_
    rw [← List.flatMap_assoc, List.flatMap_map]
    exact members_eq g
  · rw [declaredTypes_build, List.forall₂_map_left_iff, List.forall₂_same]
    exact fun g member => merged_declaredSymbol member _ _

end ConventionLint
