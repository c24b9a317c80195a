import ConventionLint.Binding.Build
import ConventionLint.Proofs.Binding.Groups

/-!
# Type parameters in sight

A type sees its own type parameters and behind them those of its containers. The scopes are built
from the sites one after another, a container before what it contains; when no key occurs twice they
are the ones that the nesting of the declarations gives, wherever these stand.
-/
namespace ConventionLint.Binding

/-- Type parameters with their owners, innermost first, behind the type that sees them. -/
abbrev ScopeEntry := DeclaredKey × List (DeclaredKey × String)

def Site.alone (s : Site) : Group :=
  ⟨s.key, s, []⟩

theorem basePart_alone (s : Site) : s.alone.basePart = s := by
  rw [Group.basePart]
  cases found : s.alone.parts.find? (!·.declaration.baseList.isEmpty) with
  | none => rfl
  | some part => exact List.mem_singleton.1 (List.mem_of_find?_eq_some found)

mutual

/-- What a declaration and those nested in it see, `outer` being seen around it. -/
def entriesIn (qualifier : Option String) (outer : List (DeclaredKey × String)) :
    TypeDeclaration → List ScopeEntry
  | ⟨name, _, _, parameters, _, _, nested, _, _⟩ =>
    let key : DeclaredKey := ⟨qualifier, name, parameters.length⟩
    let inner := parameters.map (key, ·) ++ outer
    (key, inner) :: entriesInAll (some (Text.qualify qualifier name)) inner nested

def entriesInAll (qualifier : Option String) (outer : List (DeclaredKey × String)) :
    List TypeDeclaration → List ScopeEntry
  | [] => []
  | d :: ds => entriesIn qualifier outer d ++ entriesInAll qualifier outer ds

end

def scopeEntries (files : List SourceFile) : List ScopeEntry :=
  files.flatMap fun file => file.types.flatMap fun d => entriesIn d.qualifier [] d

variable {file : SourceFile} {scopes more : List ScopeEntry} {container : Option DeclaredKey}
  {outer : List (DeclaredKey × String)}

mutual

theorem keys_entriesIn : ∀ (qualifier : Option String) (container : Option DeclaredKey)
    (outer : List (DeclaredKey × String)) (d : TypeDeclaration),
    (entriesIn qualifier outer d).map (·.1) = (sitesOf file qualifier container d).map (·.key)
  | qualifier, container, outer, ⟨name, kind, written, parameters, bases, members, nested, position,
      isPartial⟩ => by
    rw [entriesIn, sitesOf, List.map_cons, List.map_cons, keys_entriesInAll _ (some _)]

theorem keys_entriesInAll : ∀ (qualifier : Option String) (container : Option DeclaredKey)
    (outer : List (DeclaredKey × String)) (ds : List TypeDeclaration),
    (entriesInAll qualifier outer ds).map (·.1)
      = (sitesOfAll file qualifier container ds).map (·.key)
  | _, _, _, [] => rfl
  | qualifier, container, outer, d :: ds => by
    rw [entriesInAll, sitesOfAll, List.map_append, List.map_append,
      keys_entriesIn qualifier container, keys_entriesInAll qualifier container]

end

theorem keys_scopeEntries (files : List SourceFile) :
    (scopeEntries files).map (·.1) = (sites files).map (·.key) := by
  rw [scopeEntries, sites, List.map_flatMap, List.map_flatMap]
  refine List.flatMap_congr fun file _ => ?_
  rw [List.map_flatMap, List.map_flatMap]
  exact List.flatMap_congr fun d _ => keys_entriesIn d.qualifier none [] d

def extendScopes (scopes : List ScopeEntry) (g : Group) : List ScopeEntry :=
  scopes ++ [(g.key, g.ownParameters
    ++ (g.first.container.bind fun key => scopes.lookup key).getD [])]

/-- What is seen around a type, as the scopes have it. -/
def InSight (scopes : List ScopeEntry) : Option DeclaredKey → List (DeclaredKey × String) → Prop
  | none, outer => outer = []
  | some key, outer => scopes.lookup key = some outer

theorem InSight.append (h : InSight scopes container outer) :
    InSight (scopes ++ more) container outer := by
  cases container with
  | none => exact h
  | some key =>
    have found : scopes.lookup key = some outer := h
    rw [InSight, List.lookup_append, found, Option.some_or]

theorem InSight.getD_eq (h : InSight scopes container outer) :
    (container.bind fun key => scopes.lookup key).getD [] = outer := by
  cases container with
  | none => exact Eq.symm h
  | some key =>
    have found : scopes.lookup key = some outer := h
    rw [Option.bind_some, found, Option.getD_some]

theorem lookup_concat {key : DeclaredKey} {inner : List (DeclaredKey × String)}
    (unknown : key ∉ scopes.map (·.1)) : (scopes ++ [(key, inner)]).lookup key = some inner := by
  have absent : scopes.lookup key = none := by
    rw [List.lookup_eq_none_iff]
    intro entry member
    simp only [bne_iff_ne, ne_eq]
    rintro rfl
    exact unknown (List.mem_map.2 ⟨entry, member, rfl⟩)
  rw [List.lookup_append, absent, Option.none_or, List.lookup_cons_self]

mutual

theorem foldl_sitesOf : ∀ (qualifier : Option String) (container : Option DeclaredKey)
    (outer : List (DeclaredKey × String)) (d : TypeDeclaration) (scopes : List ScopeEntry),
    InSight scopes container outer →
    (scopes.map (·.1) ++ (sitesOf file qualifier container d).map (·.key)).Nodup →
    ((sitesOf file qualifier container d).map Site.alone).foldl extendScopes scopes
      = scopes ++ entriesIn qualifier outer d
  | qualifier, container, outer, ⟨name, kind, written, parameters, bases, members, nested, position,
      isPartial⟩, scopes => by
    intro seen distinct
    rw [sitesOf, List.map_cons, ← List.singleton_append, ← List.append_assoc] at distinct
    have unknown := (List.nodup_append.1 (List.nodup_append.1 distinct).1).2.2
    rw [sitesOf, entriesIn, List.map_cons, List.foldl_cons, extendScopes]
    dsimp only [Site.alone, Group.ownParameters]
    rw [seen.getD_eq, foldl_sitesOfAll _ (some _) _ nested _ (lookup_concat ?_) ?_]
    · rw [List.append_assoc, List.singleton_append]
    · intro known
      exact unknown _ known _ (List.mem_singleton.2 rfl) rfl
    · simpa using distinct

theorem foldl_sitesOfAll : ∀ (qualifier : Option String) (container : Option DeclaredKey)
    (outer : List (DeclaredKey × String)) (ds : List TypeDeclaration) (scopes : List ScopeEntry),
    InSight scopes container outer →
    (scopes.map (·.1) ++ (sitesOfAll file qualifier container ds).map (·.key)).Nodup →
    ((sitesOfAll file qualifier container ds).map Site.alone).foldl extendScopes scopes
      = scopes ++ entriesInAll qualifier outer ds
  | _, _, _, [], scopes => fun _ _ => (List.append_nil scopes).symm
  | qualifier, container, outer, d :: ds, scopes => by
    intro seen distinct
    rw [sitesOfAll, List.map_append, ← List.append_assoc] at distinct
    rw [sitesOfAll, List.map_append, List.foldl_append,
      foldl_sitesOf qualifier container outer d scopes seen (List.nodup_append.1 distinct).1,
      foldl_sitesOfAll qualifier container outer ds _ seen.append, entriesInAll, List.append_assoc]
    rwa [List.map_append, keys_entriesIn qualifier container]

end

theorem foldl_types {pairs : List (SourceFile × TypeDeclaration)} (scopes : List ScopeEntry)
    (distinct : (scopes.map (·.1)
      ++ (pairs.flatMap fun p => sitesOf p.1 p.2.qualifier none p.2).map (·.key)).Nodup) :
    ((pairs.flatMap fun p => sitesOf p.1 p.2.qualifier none p.2).map Site.alone).foldl extendScopes
      scopes = scopes ++ pairs.flatMap fun p => entriesIn p.2.qualifier [] p.2 := by
  induction pairs generalizing scopes with
  | nil => exact (List.append_nil scopes).symm
  | cons p pairs ih =>
    rw [List.flatMap_cons, List.map_append, ← List.append_assoc] at distinct
    rw [List.flatMap_cons, List.map_append, List.foldl_append,
      foldl_sitesOf p.2.qualifier none [] p.2 scopes rfl (List.nodup_append.1 distinct).1, ih,
      List.flatMap_cons, List.append_assoc]
    rwa [List.map_append, keys_entriesIn p.2.qualifier none]

/-- The scopes of types of one part each. -/
theorem parameterScopes_groups {files : List SourceFile}
    (distinct : ((sites files).map (·.key)).Nodup) :
    parameterScopes (groups (sites files)) = scopeEntries files := by
  have paired : sites files = (files.flatMap fun f => f.types.map (f, ·)).flatMap
      fun p => sitesOf p.1 p.2.qualifier none p.2 := by
    simp only [sites, List.flatMap_assoc, List.flatMap_map]
  have entries : scopeEntries files = (files.flatMap fun f => f.types.map (f, ·)).flatMap
      fun p => entriesIn p.2.qualifier [] p.2 := by
    simp only [scopeEntries, List.flatMap_assoc, List.flatMap_map]
  have built : parameterScopes (groups (sites files))
      = ((sites files).map Site.alone).foldl extendScopes [] := by
    rw [groups_of_nodup distinct]
    rfl
  rw [built, entries]
  rw [paired] at distinct ⊢
  exact foldl_types [] distinct

end ConventionLint.Binding
