import ConventionLint.Proofs.Analysis.Agreement
import ConventionLint.Proofs.Binding.AliasTermination
import ConventionLint.Proofs.Binding.WellFormed

/-!
# Base lists spread over parts

Files may declare the same but for base lists. As long as the entries that decide on bases are the
same, the other entries of base lists can be added, left out or moved to other parts and files, and
no report and no classification changes.
-/
namespace ConventionLint

mutual

/-- A declaration with nothing in its base list or in those of nested declarations. -/
def TypeDeclaration.withoutBases : TypeDeclaration → TypeDeclaration
  | ⟨name, kind, qualifier, parameters, _, members, nested, position, isPartial⟩ =>
    ⟨name, kind, qualifier, parameters, [], members, TypeDeclaration.allWithoutBases nested,
      position, isPartial⟩

def TypeDeclaration.allWithoutBases : List TypeDeclaration → List TypeDeclaration
  | [] => []
  | d :: ds => d.withoutBases :: TypeDeclaration.allWithoutBases ds

end

def SourceFile.withoutBases (file : SourceFile) : SourceFile :=
  { file with types := file.types.map TypeDeclaration.withoutBases }

namespace Binding

def Site.withoutBases (s : Site) : Site :=
  ⟨s.key, s.container, s.declaration.withoutBases, s.file.withoutBases⟩

def Group.withoutBases (g : Group) : Group :=
  ⟨g.key, g.first.withoutBases, g.further.map Site.withoutBases⟩

section

variable {file : SourceFile} {files files' : List SourceFile} {qualifier : Option String}
  {container : Option DeclaredKey}

mutual

theorem sitesOf_withoutBases : ∀ (qualifier : Option String) (container : Option DeclaredKey)
    (d : TypeDeclaration), sitesOf file.withoutBases qualifier container d.withoutBases
      = (sitesOf file qualifier container d).map Site.withoutBases
  | qualifier, container, ⟨name, kind, written, parameters, bases, members, nested, position,
      isPartial⟩ => by
    rw [TypeDeclaration.withoutBases, sitesOf, sitesOf, List.map_cons,
      sitesOfAll_withoutBases _ _ nested]
    rfl

theorem sitesOfAll_withoutBases : ∀ (qualifier : Option String) (container : Option DeclaredKey)
    (ds : List TypeDeclaration),
    sitesOfAll file.withoutBases qualifier container (TypeDeclaration.allWithoutBases ds)
      = (sitesOfAll file qualifier container ds).map Site.withoutBases
  | _, _, [] => rfl
  | qualifier, container, d :: ds => by
    rw [TypeDeclaration.allWithoutBases, sitesOfAll, sitesOfAll, List.map_append,
      sitesOf_withoutBases qualifier container d, sitesOfAll_withoutBases qualifier container ds]

end

theorem sites_withoutBases (files : List SourceFile) :
    sites (files.map SourceFile.withoutBases) = (sites files).map Site.withoutBases := by
  have kept (d : TypeDeclaration) : d.withoutBases.qualifier = d.qualifier := by
    cases d
    rfl
  rw [sites, sites, List.flatMap_map, List.map_flatMap]
  refine List.flatMap_congr fun file _ => ?_
  rw [SourceFile.withoutBases, List.flatMap_map, List.map_flatMap]
  refine List.flatMap_congr fun d _ => ?_
  rw [kept]
  exact sitesOf_withoutBases d.qualifier none d

theorem groups_withoutBases (ss : List Site) :
    groups (ss.map Site.withoutBases) = (groups ss).map Group.withoutBases :=
  groups_map (f := Site.withoutBases) (fun _ => rfl) ss

/-- What depends on no base list is the same for files that differ in base lists only. -/
theorem map_groupsOf_congr (same : files.map SourceFile.withoutBases
    = files'.map SourceFile.withoutBases) {α : Type} {f : Group → α}
    (independent : ∀ g : Group, f g.withoutBases = f g) :
    (groupsOf files).map f = (groupsOf files').map f := by
  have through (files : List SourceFile) : (groupsOf files).map f
      = (groups (sites (files.map SourceFile.withoutBases))).map f := by
    rw [sites_withoutBases, groups_withoutBases, List.map_map, groupsOf]
    exact List.map_congr_left fun g _ => (independent g).symm
  rw [through, through, same]

end

section

variable (g : Group)

theorem Group.kind_withoutBases : g.withoutBases.kind = g.kind := by
  rw [kind, kind, withoutBases, Site.withoutBases]
  cases g.first.declaration
  rfl

theorem Group.typeParameters_withoutBases : g.withoutBases.first.declaration.typeParameters
    = g.first.declaration.typeParameters := by
  rw [withoutBases, Site.withoutBases]
  cases g.first.declaration
  rfl

theorem Group.location_withoutBases : g.withoutBases.location = g.location := by
  rw [location, location, withoutBases, Site.withoutBases]
  cases g.first.declaration
  rfl

theorem Group.members_withoutBases : g.withoutBases.members = g.members := by
  have kept (d : TypeDeclaration) : d.withoutBases.members = d.members := by
    cases d
    rfl
  have parts : g.withoutBases.parts = g.parts.map Site.withoutBases := rfl
  rw [members, members, parts, List.flatMap_map]
  exact List.flatMap_congr fun s _ => by
    rw [Site.withoutBases, kept]
    rfl

end

variable {root : String} {files files' : List SourceFile} {g : Group} {markers : MarkerSet}

/-- Files that declare the same but for base lists, and where each class or record has the same
deciding entry. -/
structure SameLeads (root : String) (files files' : List SourceFile) : Prop where
  declarations : files.map SourceFile.withoutBases = files'.map SourceFile.withoutBases
  leading : ∀ g ∈ groupsOf files, ∀ g' ∈ groupsOf files', g.key = g'.key → g.IsClasslike →
    leading root files g = Binding.leading root files' g'

namespace SameLeads

variable (h : SameLeads root files files')
include h

theorem map_groups {α : Type} {f : Group → α}
    (independent : ∀ g : Group, f g.withoutBases = f g) :
    (groupsOf files).map f = (groupsOf files').map f :=
  map_groupsOf_congr h.declarations independent

theorem namesOf_eq : namesOf root files = namesOf root files' := by
  rw [namesOf, namesOf, h.map_groups fun g => rfl]

theorem exists_group (member : g ∈ groupsOf files) :
    ∃ g' ∈ groupsOf files', g'.key = g.key ∧ g'.kind = g.kind := by
  have kinds := h.map_groups (f := fun g => (g.key, g.kind)) fun g => by
    rw [g.kind_withoutBases]
    rfl
  have image : (g.key, g.kind) ∈ (groupsOf files').map fun g => (g.key, g.kind) :=
    kinds ▸ List.mem_map.2 ⟨g, member, rfl⟩
  obtain ⟨g', present, same⟩ := List.mem_map.1 image
  exact ⟨g', present, Prod.mk.inj same⟩

theorem baseOf_eq (member : g ∈ groupsOf files) :
    baseOf root files (.declared g.key) = baseOf root files' (.declared g.key) := by
  obtain ⟨g', present, keys, kinds⟩ := h.exists_group member
  rw [baseOf_declared member, ← keys, baseOf_declared present]
  by_cases classlike : g.IsClasslike
  · have classlike' : g'.IsClasslike := by rwa [Group.IsClasslike, kinds]
    rw [base_edgesIn root classlike, base_edgesIn root classlike', h.namesOf_eq,
      h.leading g member g' present keys.symm classlike]
  · have other : ¬ g'.IsClasslike := by rwa [Group.IsClasslike, kinds]
    rw [base_edgesIn_of_not classlike, base_edgesIn_of_not other]

theorem outlines_eq : outlines root files = outlines root files' := by
  have parts := h.map_groups (f := fun g => Outline.mk g.key g.kind
    g.first.declaration.typeParameters g.members g.location none) fun g => by
      rw [g.kind_withoutBases, g.typeParameters_withoutBases, g.members_withoutBases,
        g.location_withoutBases]
      rfl
  have through {files : List SourceFile} (based : ∀ g ∈ groupsOf files,
      (edgesIn root files g).base = baseOf root files' (.declared g.key)) :
      outlines root files = ((groupsOf files).map fun g => Outline.mk g.key g.kind
        g.first.declaration.typeParameters g.members g.location none).map fun outline =>
          { outline with base := baseOf root files' (.declared outline.key) } := by
    rw [outlines, List.map_map]
    exact List.map_congr_left fun g member => by
      rw [outlineOf, based g member]
      rfl
  rw [through fun g member => (baseOf_declared member).symm.trans (h.baseOf_eq member),
    through fun g member => (baseOf_declared member).symm, parts]

theorem corresponds : Resolver.Corresponds ⟨.build root files, markers⟩
    ⟨.build root files', markers⟩ (SharedKey root files files') :=
  corresponds_build fun outline => by rw [h.outlines_eq]

theorem acyclic (acyclic : ∀ file ∈ files, file.Acyclic) : ∀ file ∈ files', file.Acyclic := by
  have through (files : List SourceFile) : (files.map SourceFile.withoutBases).map (·.aliases)
      = files.map (·.aliases) := by
    rw [List.map_map]
    rfl
  have aliases : files.map (·.aliases) = files'.map (·.aliases) := by
    rw [← through, h.declarations, through]
  have each : ∀ entries ∈ files.map (·.aliases), UsingAlias.Acyclic entries [] :=
    List.forall_mem_map.2 acyclic
  rw [aliases] at each
  exact fun file member => each file.aliases (List.mem_map_of_mem member)

theorem keys_eq : (groupsOf files).map (SymbolKey.declared ·.key)
    = (groupsOf files').map (SymbolKey.declared ·.key) :=
  h.map_groups fun _ => rfl

theorem id_eq {a b : TypeSymbol} (related : SharedKey root files files' a b)
    (declared : a ∈ (Compilation.build root files).declaredTypes) : a.id = b.id := by
  obtain ⟨key, -, -, found, found'⟩ := related
  obtain ⟨g, member, rfl⟩ :=
    declared_of_symbolOf found (Compilation.mem_declaredTypes.1 declared).2
  obtain ⟨g', present, keys, -⟩ := h.exists_group member
  rw [id_of_symbolOf found, id_of_symbolOf found', idOf_declared member, h.keys_eq, ← keys,
    idOf_declared present]

theorem types_eq : (Compilation.build root files).declaredTypes.map (fun t => (t.id, t.members))
    = (Compilation.build root files').declaredTypes.map fun t => (t.id, t.members) := by
  have through (files : List SourceFile) :
      (Compilation.build root files).declaredTypes.map (fun t => (t.id, t.members))
        = (groupsOf files).map fun g =>
            (idOf ((groupsOf files).map (SymbolKey.declared ·.key)) (.declared g.key),
              g.members) := by
    rw [declaredTypes_build, List.map_map]
    refine List.map_congr_left fun g member => ?_
    have place : idOf (keysOf root files) (.declared g.key) = _ := idOf_declared member
    rw [← place]
    rfl
  rw [through, through, h.keys_eq]
  exact h.map_groups fun g => by
    rw [g.members_withoutBases]
    rfl

theorem violates {s : SymbolRef} {f : Finding} {k : Convention} :
    Resolver.Violates ⟨.build root files, markers⟩ s f k ↔
      Resolver.Violates ⟨.build root files', markers⟩ s f k := by
  constructor
  · intro broken
    obtain ⟨s', same, broken'⟩ := h.corresponds.violates broken
    cases same with
    | type declared related => exact h.id_eq related declared ▸ broken'
    | member index declared related => exact h.id_eq related declared ▸ broken'
  · intro broken
    have back : Resolver.Corresponds ⟨.build root files', markers⟩ ⟨.build root files, markers⟩
        fun b a => SharedKey root files files' a b := h.corresponds.symm
    obtain ⟨s', same, broken'⟩ := back.violates broken
    cases same with
    | type declared related =>
      exact h.id_eq related (back.declared related declared) ▸ broken'
    | member index declared related =>
      exact h.id_eq related (back.declared related declared) ▸ broken'

theorem analyze_eq (severity : Convention → Option Severity) (reports : Bool) :
    (Compilation.build root files).analyze (.select severity reports) markers false
      = (Compilation.build root files').analyze (.select severity reports) markers false := by
  have paths : files.length = files'.length := by
    simpa using congrArg List.length h.declarations
  refine Compilation.analyze_congr severity reports ?_ h.types_eq fun s f k => h.violates
  change (files.map (·.path)).length = (files'.map (·.path)).length
  rw [List.length_map, List.length_map, paths]

/-- Types of one key are classified alike. -/
theorem classify_alike {t t' : TypeSymbol}
    (declared : t ∈ (Compilation.build root files).declaredTypes)
    (declared' : t' ∈ (Compilation.build root files').declaredTypes)
    (same : declaredKeyOf t = declaredKeyOf t') :
    Taxonomy.Alike (.build root files) (.build root files')
      (Resolver.classify ⟨.build root files, markers⟩ t.id)
      (Resolver.classify ⟨.build root files', markers⟩ t'.id) := by
  rw [declaredTypes_build] at declared declared'
  obtain ⟨g, member, rfl⟩ := List.mem_map.1 declared
  obtain ⟨g', member', rfl⟩ := List.mem_map.1 declared'
  rw [declaredKeyOf_declaredSymbol member, declaredKeyOf_declaredSymbol member'] at same
  exact h.corresponds.classify ⟨.declared g.key, declared_mem_keysOf member,
    same ▸ declared_mem_keysOf member', symbolOf_declared member, same ▸ symbolOf_declared member'⟩

end SameLeads

end Binding

open Binding

/-- A class or record derives from what leads the base list of its first part that has one, and from
the root when nothing does. Base lists matter for reports and classifications in nothing else. That
imports have no separator in them is for external types, which are told apart by what their imports
are put together to. -/
theorem Compilation.build_bases (root : String) (files : List SourceFile) (markers : MarkerSet)
    (acyclic : ∀ file ∈ files, file.Acyclic)
    (separable : ∀ file ∈ files, file.ImportsSeparable) :
    ∃ c, build? root files = some c ∧
      (∀ g ∈ groupsOf files, g.IsClasslike →
        ∃ t ∈ c.declaredTypes, declaredKeyOf t = g.key ∧
          ∃ base, Resolver.directBase ⟨c, markers⟩ t.id = some base ∧
            Denotes c base (baseKey root files g) ∧
            (∀ named, (∀ r, NamesClass root files g r → r = named) →
              (leading root files g = some named → Denotes c base named.target) ∧
              (leading root files g ≠ some named → Denotes c base (namesOf root files).root)) ∧
            ∀ named, isInterface (groupsOf files) named = false →
              (∃ part ∈ g.parts, part.declaration.baseList ≠ []) →
              (∀ part ∈ g.parts, part.declaration.baseList ≠ [] →
                (entriesOf root files g part).head? = some named) →
              Denotes c base named.target) ∧
      (∀ files', SameLeads root files files' → ∃ c', build? root files' = some c' ∧
        (∀ severity reports, c.analyze (.select severity reports) markers false
          = c'.analyze (.select severity reports) markers false) ∧
        ∀ t ∈ c.declaredTypes, ∀ t' ∈ c'.declaredTypes, declaredKeyOf t = declaredKeyOf t' →
          Taxonomy.Alike c c' (Resolver.classify ⟨c, markers⟩ t.id)
            (Resolver.classify ⟨c', markers⟩ t'.id)) ∧
      ∀ t ∈ c.types, ∀ t' ∈ c.types, t.kind = .external → t'.kind = .external →
        declaredKeyOf t = declaredKeyOf t' → t.joinedImports = t'.joinedImports → t = t' := by
  refine ⟨build root files, build?_of_acyclic acyclic, ?_, ?_, ?_⟩
  · intro g member classlike
    obtain ⟨t, declared, key, base, link, denotes⟩ :=
      exists_directBase root markers member classlike
    refine ⟨t, declared, key, base, link, denotes, fun named only => ⟨?_, ?_⟩, ?_⟩
    · intro leads
      rwa [baseKey, leads] at denotes
    · intro other
      rcases leading_eq_none_or only with none | leads
      · rwa [baseKey, none] at denotes
      · exact absurd leads other
    · rintro named shown ⟨part, present, listed⟩ heads
      rwa [baseKey, leading_of_heads present listed heads shown] at denotes
  · intro files' same
    exact ⟨build root files', build?_of_acyclic (same.acyclic acyclic), same.analyze_eq,
      fun t declared t' declared' keys => same.classify_alike declared declared' keys⟩
  · exact fun t member t' member' => externals_apart_joined separable member member'

def partsOfAdded (first second : List WrittenType) : SourceFile where
  path := ⟨"a.cs"⟩
  imports := []
  aliases := []
  types :=
    [⟨"Added", .plainClass, none, [], first, [], [], ⟨1, 15⟩, true⟩,
     ⟨"Added", .plainClass, none, [], second, [], [], ⟨2, 15⟩, true⟩]

def added (first second : List WrittenType) : Group where
  key := ⟨none, "Added", 0⟩
  first := ⟨⟨none, "Added", 0⟩, none,
    ⟨"Added", .plainClass, none, [], first, [], [], ⟨1, 15⟩, true⟩, partsOfAdded first second⟩
  further := [⟨⟨none, "Added", 0⟩, none,
    ⟨"Added", .plainClass, none, [], second, [], [], ⟨2, 15⟩, true⟩, partsOfAdded first second⟩]

theorem groupsOf_partsOfAdded (first second : List WrittenType) :
    groupsOf [partsOfAdded first second] = [added first second] := rfl

def writtenThing : WrittenType := ⟨some "Lib", "IThing", []⟩

def writtenEvent : WrittenType := ⟨some "Slalom.Stacks.Messaging", "Event", []⟩

def eventMarkers : MarkerSet :=
  ⟨fun _ => .ofIdentity "Slalom.Stacks.Messaging.Event", false⟩

def boundEvent : Reference :=
  ⟨"Event", .external (some "Slalom.Stacks.Messaging") "Event" 0 [], []⟩

theorem leading_added : leading "System.Object" [partsOfAdded [writtenThing] [writtenEvent]]
    (added [writtenThing] [writtenEvent]) = none := rfl

theorem baseKey_added : baseKey "System.Object" [partsOfAdded [writtenThing] [writtenEvent]]
    (added [writtenThing] [writtenEvent]) = .external (some "System") "Object" 0 [] := by
  rw [baseKey, leading_added]
  rfl

theorem namesClass_added {r : Reference} :
    NamesClass "System.Object" [partsOfAdded [writtenThing] [writtenEvent]]
      (added [writtenThing] [writtenEvent]) r ↔ r = boundEvent := by
  let files := [partsOfAdded [writtenThing] [writtenEvent]]
  let g := added [writtenThing] [writtenEvent]
  have later : ∀ part ∈ g.further, entriesOf "System.Object" files g part = [boundEvent] := by
    intro part inside
    rw [List.mem_singleton.1 inside]
    rfl
  constructor
  · rintro ⟨part, inside, entry, shown⟩
    rcases List.mem_cons.1 inside with rfl | behind
    · have interface : isInterface (groupsOf files) r = true := by
        rw [List.mem_singleton.1 entry]
        decide
      rw [interface] at shown
      cases shown
    · exact List.mem_singleton.1 (later part behind ▸ entry)
  · rintro rfl
    exact ⟨_, List.mem_cons_of_mem _ (List.mem_singleton.2 rfl), List.mem_singleton.2 rfl, rfl⟩

theorem acyclic_partsOfAdded (first second : List WrittenType) :
    (partsOfAdded first second).Acyclic :=
  UsingAlias.acyclic_of_rank (fun _ => 0) (by simp [partsOfAdded])

/-- The class is all that is declared there. -/
theorem eq_of_mem_declaredTypes_added {first second : List WrittenType} {t t' : TypeSymbol}
    (member : t ∈ (Compilation.build "System.Object" [partsOfAdded first second]).declaredTypes)
    (member' : t' ∈ (Compilation.build "System.Object" [partsOfAdded first second]).declaredTypes) :
    t = t' := by
  rw [declaredTypes_build, groupsOf_partsOfAdded] at member member'
  rw [List.mem_singleton.1 member, List.mem_singleton.1 member']

/-- A class that only a later base list names is not the base: here an interface comes first, in a
part of its own, and the event behind it is lost. -/
theorem Compilation.base_of_later_part_lost :
    ¬ ∀ (root : String) (files : List SourceFile) (markers : MarkerSet),
      (∀ file ∈ files, file.Acyclic) → ∃ c, build? root files = some c ∧
        ∀ g ∈ groupsOf files, g.IsClasslike → ∀ named, NamesClass root files g named →
          (∀ r, NamesClass root files g r → r = named) →
          ∃ t ∈ c.declaredTypes, declaredKeyOf t = g.key ∧
            ∃ base, Resolver.directBase ⟨c, markers⟩ t.id = some base ∧
              Denotes c base named.target := by
  intro claim
  let files := [partsOfAdded [writtenThing] [writtenEvent]]
  have member : added [writtenThing] [writtenEvent] ∈ groupsOf files := List.mem_singleton.2 rfl
  have acyclic : ∀ file ∈ files, file.Acyclic :=
    List.forall_mem_singleton.2 (acyclic_partsOfAdded _ _)
  obtain ⟨c, built, based⟩ := claim "System.Object" files eventMarkers acyclic
  obtain rfl : build "System.Object" files = c :=
    Option.some.inj ((build?_of_acyclic acyclic).symm.trans built)
  obtain ⟨t, declared, -, base, link, denotes⟩ :=
    based _ member (.inl rfl) boundEvent (namesClass_added.2 rfl) fun r => namesClass_added.1
  obtain ⟨t', declared', -, base', link', denotes'⟩ :=
    exists_directBase "System.Object" eventMarkers member (.inl rfl)
  obtain rfl := eq_of_mem_declaredTypes_added declared declared'
  obtain rfl := Option.some.inj (link.symm.trans link')
  rw [baseKey_added] at denotes'
  exact absurd (denotes.2.1.symm.trans denotes'.2.1) (by decide)

def filesOfAdded (first second : List WrittenType) : List SourceFile :=
  [partsOfAdded first second,
    { orderBook with path := ⟨"b.cs"⟩, imports := ["System.Collections.Generic"] }]

theorem acyclic_filesOfAdded (first second : List WrittenType) :
    ∀ file ∈ filesOfAdded first second, file.Acyclic := by
  have ranked : orderBook.Acyclic := UsingAlias.acyclic_of_rank
    (fun name => if name = "Orders" then 2 else if name = "Entry" then 1 else 0) (by decide)
  exact List.forall_mem_cons.2
    ⟨acyclic_partsOfAdded first second, List.forall_mem_singleton.2 ranked⟩

/-- An interface may join the deciding class in its part or stand in a part of its own. -/
theorem Compilation.build_bases_added :
    SameLeads "System.Object" (filesOfAdded [writtenEvent] [writtenThing])
        (filesOfAdded [writtenEvent, writtenThing] []) ∧
      ∃ c c', build? "System.Object" (filesOfAdded [writtenEvent] [writtenThing]) = some c ∧
        build? "System.Object" (filesOfAdded [writtenEvent, writtenThing] []) = some c' ∧
        c.analyze (.select (fun _ => some .error) false) eventMarkers false
          = c'.analyze (.select (fun _ => some .error) false) eventMarkers false := by
  have same : SameLeads "System.Object" (filesOfAdded [writtenEvent] [writtenThing])
      (filesOfAdded [writtenEvent, writtenThing] []) := by
    refine ⟨rfl, ?_⟩
    intro g member g' member' keys _
    rcases List.mem_pair.1 member with rfl | rfl <;>
      rcases List.mem_pair.1 member' with rfl | rfl <;>
      first | rfl | exact absurd keys (by decide)
  obtain ⟨c, built, -, spread, -⟩ := build_bases "System.Object" _ eventMarkers
    (acyclic_filesOfAdded [writtenEvent] [writtenThing]) (by decide)
  obtain ⟨c', built', reports, -⟩ := spread _ same
  exact ⟨same, c, c', built, built', reports (fun _ => some .error) false⟩

end ConventionLint
