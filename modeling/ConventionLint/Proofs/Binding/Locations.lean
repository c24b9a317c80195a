import ConventionLint.Proofs.Analysis.Visit
import ConventionLint.Proofs.Binding.Rearrangement
import ConventionLint.Proofs.Report.Order
import ConventionLint.Proofs.Source.DeclarationRoundTrip
import ConventionLint.Proofs.Source.Places

/-!
# Where symbols stand

The symbols of scanned files stand at different places: the names of one file do, and different
files have different paths. A place therefore tells which symbol it is the place of.
-/
namespace ConventionLint

/-- Whether two locations are told apart when they are compared. -/
def Location.Apart (l l' : Location) : Prop :=
  compare l l' ≠ .eq

theorem Location.Apart.symm {l l' : Location} (h : l.Apart l') : l'.Apart l :=
  fun same => h (Std.OrientedCmp.eq_symm same)

def TypeSymbol.locations (t : TypeSymbol) : List Location :=
  t.location.toList ++ t.members.filterMap (·.location)

namespace Compilation

variable {c : Compilation}

/-- No two symbols stand at one place. -/
def PlacedApart (c : Compilation) : Prop :=
  ∀ s ∈ c.visitableSymbols, ∀ s' ∈ c.visitableSymbols, ∀ l l', c.symbolLocation s = some l →
    c.symbolLocation s' = some l' → compare l l' = .eq → s = s'

/-- The place of a symbol is that of a type or of one of its members. -/
theorem exists_location {s : SymbolRef} {l : Location} (visitable : s ∈ c.visitableSymbols)
    (placed : c.symbolLocation s = some l) : ∃ t ∈ c.declaredTypes, l ∈ t.locations ∧
      (s = .type t.id ∧ t.location = some l ∨ ∃ index m, t.members[index]? = some m ∧
        m.location = some l ∧ s = .member t.id index) := by
  obtain ⟨kind, declared⟩ := mem_visitableSymbols.1 visitable
  by_cases outer : kind = .type
  · subst kind
    obtain ⟨t, present, rfl⟩ := mem_declaredSymbols_type.1 declared
    rw [symbolLocation, get?_of_mem_declaredTypes present, Option.bind_some] at placed
    refine ⟨t, present, List.mem_append_left _ ?_, .inl ⟨rfl, placed⟩⟩
    rw [placed]
    exact List.mem_singleton.2 rfl
  · obtain ⟨t, present, index, m, found, -, rfl⟩ := (mem_declaredSymbols_member outer).1 declared
    rw [symbolLocation, member?_of_mem present, found, Option.bind_some] at placed
    refine ⟨t, present, List.mem_append_right _ ?_, .inr ⟨index, m, found, placed, rfl⟩⟩
    exact List.mem_filterMap.2 ⟨m, List.mem_of_getElem? found, placed⟩

theorem index_eq_of_pairwise {t : TypeSymbol} (apart : t.locations.Pairwise Location.Apart)
    {i j : Nat} {m n : MemberSymbol} {l l' : Location} (first : t.members[i]? = some m)
    (second : t.members[j]? = some n) (here : m.location = some l) (there : n.location = some l')
    (same : compare l l' = .eq) : i = j := by
  have members := List.pairwise_filterMap.1 (List.pairwise_append.1 apart).2.1
  rw [List.pairwise_iff_getElem] at members
  obtain ⟨i_lt, rfl⟩ := List.getElem?_eq_some_iff.1 first
  obtain ⟨j_lt, rfl⟩ := List.getElem?_eq_some_iff.1 second
  rcases Nat.lt_trichotomy i j with before | equal | behind
  · exact absurd same (members i j i_lt j_lt before l here l' there)
  · exact equal
  · exact absurd same (members j i j_lt i_lt behind l' there l here).symm

theorem placedApart_of_pairwise
    (apart : (c.declaredTypes.flatMap TypeSymbol.locations).Pairwise Location.Apart) :
    c.PlacedApart := by
  obtain ⟨inside, across⟩ := List.pairwise_flatMap.1 apart
  intro s visitable s' visitable' l l' placed placed' same
  obtain ⟨t, present, among, place⟩ := exists_location visitable placed
  obtain ⟨t', present', among', place'⟩ := exists_location visitable' placed'
  have owner : t = t' := by
    by_contra different
    have symmetric : Std.Symm fun a b : TypeSymbol =>
        ∀ x ∈ a.locations, ∀ y ∈ b.locations, x.Apart y :=
      ⟨fun a b h x hx y hy => (h y hy x hx).symm⟩
    exact across.forall present present' different l among l' among' same
  subst owner
  have outer := (List.pairwise_append.1 (inside t present)).2.2
  rcases place with ⟨rfl, here⟩ | ⟨i, m, found, here, rfl⟩ <;>
    rcases place' with ⟨rfl, there⟩ | ⟨j, n, found', there, rfl⟩
  · rfl
  · refine absurd same (outer l (by rw [here]; simp) l' ?_)
    exact List.mem_filterMap.2 ⟨n, List.mem_of_getElem? found', there⟩
  · refine absurd same (Location.Apart.symm (outer l' (by rw [there]; simp) l ?_))
    exact List.mem_filterMap.2 ⟨m, List.mem_of_getElem? found, here⟩
  · rw [index_eq_of_pairwise (inside t present) found found' here there same]

end Compilation

namespace Binding

def locate (path : Path) (p : Position) : Location :=
  ⟨path, p.line, p.column⟩

def Site.locations (s : Site) : List Location :=
  (s.declaration.position :: Source.placesOf s.declaration.members).map (locate s.file.path)

theorem locations_memberSymbols (path : Path) (members : List MemberDeclaration) :
    (members.flatMap (memberSymbols path)).filterMap (·.location)
      = (Source.placesOf members).map (locate path) := by
  induction members with
  | nil => rfl
  | cons m members ih =>
    have own : (memberSymbols path m).filterMap (·.location) = [locate path m.position] := by
      rw [memberSymbols]
      dsimp only
      cases m.kind with
      | property setter auto => cases auto <;> rfl
      | field => rfl
      | method => rfl
    rw [List.flatMap_cons, List.filterMap_append, ih, own]
    rfl

theorem locations_declaredSymbol (keys : List SymbolKey) (s : Site) (edges : Edges) :
    (declaredSymbol keys s.alone edges).locations = s.locations := by
  have members : s.alone.members = s.declaration.members.flatMap (memberSymbols s.file.path) :=
    List.append_nil _
  rw [TypeSymbol.locations, declaredSymbol, members, locations_memberSymbols]
  rfl

mutual

theorem locations_sitesOf {file : SourceFile} : ∀ (qualifier : Option String)
    (container : Option DeclaredKey) (d : TypeDeclaration),
    (sitesOf file qualifier container d).flatMap Site.locations = d.places.map (locate file.path)
  | qualifier, container, ⟨name, kind, written, parameters, bases, members, nested, position,
      isPartial⟩ => by
    rw [sitesOf, List.flatMap_cons, locations_sitesOfAll _ _ nested, TypeDeclaration.places,
      ← List.cons_append, List.map_append]
    rfl

theorem locations_sitesOfAll {file : SourceFile} : ∀ (qualifier : Option String)
    (container : Option DeclaredKey) (ds : List TypeDeclaration),
    (sitesOfAll file qualifier container ds).flatMap Site.locations
      = (TypeDeclaration.placesOfAll ds).map (locate file.path)
  | _, _, [] => rfl
  | qualifier, container, d :: ds => by
    rw [sitesOfAll, List.flatMap_append, TypeDeclaration.placesOfAll, List.map_append,
      locations_sitesOf qualifier container d, locations_sitesOfAll qualifier container ds]

end

theorem locations_sites (files : List SourceFile) : (sites files).flatMap Site.locations
    = files.flatMap fun file => file.places.map (locate file.path) := by
  rw [sites, List.flatMap_assoc]
  refine List.flatMap_congr fun file _ => ?_
  rw [List.flatMap_assoc, SourceFile.places, List.map_flatMap]
  exact List.flatMap_congr fun d _ => locations_sitesOf d.qualifier none d

mutual

theorem keys_sitesOf_unplaced {file file' : SourceFile} : ∀ (qualifier : Option String)
    (container : Option DeclaredKey) (d : TypeDeclaration),
    (sitesOf file qualifier container d.unplaced).map (·.key)
      = (sitesOf file' qualifier container d).map (·.key)
  | qualifier, container, ⟨name, kind, written, parameters, bases, members, nested, position,
      isPartial⟩ => by
    rw [TypeDeclaration.unplaced, sitesOf, sitesOf, List.map_cons, List.map_cons,
      keys_sitesOfAll_unplaced _ _ nested]

theorem keys_sitesOfAll_unplaced {file file' : SourceFile} : ∀ (qualifier : Option String)
    (container : Option DeclaredKey) (ds : List TypeDeclaration),
    (sitesOfAll file qualifier container (TypeDeclaration.unplacedAll ds)).map (·.key)
      = (sitesOfAll file' qualifier container ds).map (·.key)
  | _, _, [] => rfl
  | qualifier, container, d :: ds => by
    rw [TypeDeclaration.unplacedAll, sitesOfAll, sitesOfAll, List.map_append, List.map_append,
      keys_sitesOf_unplaced qualifier container d, keys_sitesOfAll_unplaced qualifier container ds]

end

/-- What is declared does not tell where. -/
theorem keys_sites_unplaced (files : List SourceFile) :
    (sites (files.map SourceFile.unplaced)).map (·.key) = (sites files).map (·.key) := by
  rw [sites, sites, List.flatMap_map, List.map_flatMap, List.map_flatMap]
  refine List.flatMap_congr fun file _ => ?_
  rw [SourceFile.unplaced, Source.unplacedAll_eq_map, List.flatMap_map, List.map_flatMap,
    List.map_flatMap]
  refine List.flatMap_congr fun d _ => ?_
  have qualifier : d.unplaced.qualifier = d.qualifier := by
    cases d
    rfl
  rw [qualifier, keys_sitesOf_unplaced]

variable {files files' : List SourceFile}

/-- Files with different paths have no place in common, and each has its places once. -/
theorem apart_of_places (places : ∀ f ∈ files, f.places.Nodup)
    (paths : files.Pairwise fun f g => f.path.same g.path = false) :
    ((sites files).flatMap Site.locations).Pairwise Location.Apart := by
  rw [locations_sites, List.pairwise_flatMap]
  constructor
  · intro f member
    rw [List.pairwise_map]
    refine (places f member).imp fun {p q} different same => different ?_
    obtain ⟨-, lines, columns⟩ := Location.compare_eq_iff.1 same
    cases p
    cases q
    rw [Position.mk.injEq]
    exact ⟨lines, columns⟩
  · refine paths.imp fun {f g} different l first l' second same => ?_
    obtain ⟨p, -, rfl⟩ := List.mem_map.1 first
    obtain ⟨q, -, rfl⟩ := List.mem_map.1 second
    have paths := (Location.compare_eq_iff.1 same).1
    exact Bool.false_ne_true (different.symm.trans paths)

theorem SameSites.placedApart (h : SameSites files files')
    (apart : ((Binding.sites files).flatMap Site.locations).Pairwise Location.Apart)
    (root : String) : (Compilation.build root files).PlacedApart := by
  refine Compilation.placedApart_of_pairwise ?_
  rw [declaredTypes_build, h.groupsOf_eq, List.flatMap_map, List.flatMap_map]
  simpa only [locations_declaredSymbol] using apart

/-- Where sites stand is not a matter of their order. -/
theorem SameSites.apart (h : SameSites files files')
    (apart : ((Binding.sites files).flatMap Site.locations).Pairwise Location.Apart) :
    ((Binding.sites files').flatMap Site.locations).Pairwise Location.Apart := by
  have perm := h.sites.flatMap_right Site.locations
  rw [List.flatMap_map, List.flatMap_map] at perm
  exact apart.perm perm fun different => different.symm

end Binding

end ConventionLint
