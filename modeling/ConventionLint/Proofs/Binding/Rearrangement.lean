import ConventionLint.Proofs.Binding.Outline
import ConventionLint.Proofs.Binding.Scopes
import ConventionLint.Proofs.Lists

/-!
# Rearranged files

Files may be given in any order, and their top-level declarations may stand in any order. When no
key is declared twice, the types that are built get other numbers and the same outlines: names are
looked up among all keys, and what a type sees around it goes by the nesting of its declaration.
-/
namespace ConventionLint

/-- Two files that declare the same, up to the order of their top-level declarations. -/
structure SourceFile.SameContents (f f' : SourceFile) : Prop where
  path : f.path = f'.path
  imports : f.imports = f'.imports
  aliases : f.aliases = f'.aliases
  types : f.types.Perm f'.types

/-- The same files in any order, the declarations of each in any order. -/
def SourceFile.Rearranged (files files' : List SourceFile) : Prop :=
  ∃ between, files.Perm between ∧ List.Forall₂ SameContents between files'

def SourceFile.bare (f : SourceFile) : SourceFile :=
  { f with types := [] }

theorem SourceFile.SameContents.bare_eq {f f' : SourceFile} (h : f.SameContents f') :
    f.bare = f'.bare := by
  rw [bare, bare, h.path, h.imports, h.aliases]

/-- What comes of the declarations of files, each for itself, comes of rearranged ones. -/
theorem SourceFile.Rearranged.flatMap_perm {α : Type} {files files' : List SourceFile}
    (h : Rearranged files files') (f : SourceFile → TypeDeclaration → List α) :
    (files.flatMap fun file => file.types.flatMap (f file.bare)).Perm
      (files'.flatMap fun file => file.types.flatMap (f file.bare)) := by
  obtain ⟨between, perm, contents⟩ := h
  refine (perm.flatMap_right _).trans ?_
  clear perm
  induction contents with
  | nil => exact .refl _
  | cons same _ ih =>
    rw [List.flatMap_cons, List.flatMap_cons, same.bare_eq]
    exact (same.types.flatMap_right _).append ih

theorem SourceFile.Rearranged.length_eq {files files' : List SourceFile}
    (h : Rearranged files files') : files.length = files'.length := by
  obtain ⟨between, perm, contents⟩ := h
  exact perm.length_eq.trans contents.length_eq

namespace Binding

def Site.bare (s : Site) : Site :=
  { s with file := s.file.bare }

mutual

theorem sitesOf_bare {file : SourceFile} : ∀ (qualifier : Option String)
    (container : Option DeclaredKey) (d : TypeDeclaration),
    (sitesOf file qualifier container d).map Site.bare = sitesOf file.bare qualifier container d
  | qualifier, container, ⟨name, kind, written, parameters, bases, members, nested, position,
      isPartial⟩ => by
    rw [sitesOf, sitesOf, List.map_cons, sitesOfAll_bare]
    rfl

theorem sitesOfAll_bare {file : SourceFile} : ∀ (qualifier : Option String)
    (container : Option DeclaredKey) (ds : List TypeDeclaration),
    (sitesOfAll file qualifier container ds).map Site.bare
      = sitesOfAll file.bare qualifier container ds
  | _, _, [] => rfl
  | qualifier, container, d :: ds => by
    rw [sitesOfAll, sitesOfAll, List.map_append, sitesOf_bare, sitesOfAll_bare]

end

theorem sites_bare (files : List SourceFile) : (sites files).map Site.bare
    = files.flatMap fun file =>
        file.types.flatMap fun d => sitesOf file.bare d.qualifier none d := by
  rw [sites, List.map_flatMap]
  refine List.flatMap_congr fun file _ => ?_
  rw [List.map_flatMap]
  exact List.flatMap_congr fun d _ => sitesOf_bare d.qualifier none d

/-- Files with the same sites and scopes in some order, where no key occurs twice. -/
structure SameSites (files files' : List SourceFile) : Prop where
  sites : ((sites files).map Site.bare).Perm ((Binding.sites files').map Site.bare)
  scopes : (scopeEntries files).Perm (scopeEntries files')
  distinct : ((Binding.sites files).map (·.key)).Nodup

theorem sameSites_of_rearranged {files files' : List SourceFile}
    (h : SourceFile.Rearranged files files') (distinct : ((sites files).map (·.key)).Nodup) :
    SameSites files files' where
  sites := by
    rw [sites_bare, sites_bare]
    exact h.flatMap_perm fun file d => sitesOf file d.qualifier none d
  scopes := h.flatMap_perm fun _ d => entriesIn d.qualifier [] d
  distinct := distinct

/-- Two sets of names that know the same. -/
structure Names.Agree (n n' : Names) : Prop where
  declared : ∀ key, key ∈ n.declared ↔ key ∈ n'.declared
  rootQualifier : n.rootQualifier = n'.rootQualifier
  rootName : n.rootName = n'.rootName

section

variable {n n' : Names} {scope : Scope}

theorem Names.Agree.lookup_eq (h : n.Agree n') : n.lookup = n'.lookup := by
  funext qualifier name arity
  simp only [lookup, List.contains_eq_mem, h.declared]

theorem Names.Agree.root_eq (h : n.Agree n') : n.root = n'.root := by
  rw [root, root, h.lookup_eq, h.rootQualifier, h.rootName]

theorem Names.Agree.bind_eq (h : n.Agree n') (t : WrittenType) :
    n.bind scope t = n'.bind scope t := by
  simp only [bind, bindQualified, bindSimple, bindWord, h.lookup_eq, h.root_eq]

mutual

theorem Names.Agree.ofWritten_eq (h : n.Agree n') : ∀ t : WrittenType,
    Reference.ofWritten n scope t = Reference.ofWritten n' scope t
  | ⟨qualifier, name, arguments⟩ => by
    rw [Reference.ofWritten, Reference.ofWritten, h.bind_eq, h.ofAllWritten_eq arguments]

theorem Names.Agree.ofAllWritten_eq (h : n.Agree n') : ∀ ts : List WrittenType,
    Reference.ofAllWritten n scope ts = Reference.ofAllWritten n' scope ts
  | [] => rfl
  | t :: ts => by
    rw [Reference.ofAllWritten, Reference.ofAllWritten, h.ofWritten_eq t, h.ofAllWritten_eq ts]

end

theorem Names.Agree.resolve_eq (h : n.Agree n') :
    Reference.resolve n scope = Reference.resolve n' scope := by
  funext t
  exact h.ofWritten_eq _

theorem Names.Agree.divide_eq (h : n.Agree n') {gs gs' : List Group}
    (interfaces : isInterface gs = isInterface gs') (kind : TypeKind) (written : List Reference) :
    divide n gs kind written = divide n' gs' kind written := by
  unfold divide
  rw [interfaces, h.root_eq, h.rootName]

end

namespace SameSites

variable {files files' : List SourceFile} (h : SameSites files files')
include h

theorem keys_perm :
    ((Binding.sites files).map (·.key)).Perm ((Binding.sites files').map (·.key)) := by
  have perm := h.sites.map (·.key)
  rw [List.map_map, List.map_map] at perm
  exact perm

theorem symm : SameSites files' files :=
  ⟨h.sites.symm, h.scopes.symm, h.keys_perm.nodup_iff.1 h.distinct⟩

theorem groupsOf_eq : groupsOf files = (Binding.sites files).map Site.alone :=
  groups_of_nodup h.distinct

theorem agree (root : String) : (namesOf root files).Agree (namesOf root files') where
  declared key := by
    rw [namesOf, namesOf, groupsOf, groupsOf, mem_map_key_groups, mem_map_key_groups,
      h.keys_perm.mem_iff]
  rootQualifier := rfl
  rootName := rfl

theorem lookup_scopesOf (key : DeclaredKey) :
    (scopesOf files).lookup key = (scopesOf files').lookup key := by
  rw [scopesOf, scopesOf, groupsOf, groupsOf, parameterScopes_groups h.distinct,
    parameterScopes_groups h.symm.distinct]
  exact lookup_eq_of_perm (keys_scopeEntries files ▸ h.distinct) h.scopes key

theorem exists_site {s : Site} (member : s ∈ Binding.sites files) :
    ∃ s' ∈ Binding.sites files', s'.bare = s.bare :=
  List.mem_map.1 (h.sites.mem_iff.1 (List.mem_map.2 ⟨s, member, rfl⟩))

theorem isInterface_of {r : Reference} (shown : isInterface (groupsOf files) r = true) :
    isInterface (groupsOf files') r = true := by
  obtain ⟨name, target, arguments⟩ := r
  cases target with
  | declared key =>
    obtain ⟨g, member, fits⟩ := List.any_eq_true.1 shown
    rw [h.groupsOf_eq] at member
    obtain ⟨s, present, rfl⟩ := List.mem_map.1 member
    obtain ⟨s', present', same⟩ := h.exists_site present
    obtain ⟨keys, -, declarations, -⟩ := Site.mk.inj same
    refine List.any_eq_true.2 ⟨s'.alone, ?_, ?_⟩
    · rw [h.symm.groupsOf_eq]
      exact List.mem_map.2 ⟨s', present', rfl⟩
    · rw [Bool.and_eq_true, decide_eq_true_eq, decide_eq_true_eq] at fits ⊢
      exact ⟨keys.trans fits.1, by simpa only [Group.kind, Site.alone, declarations] using fits.2⟩
  | external | parameter => exact shown

theorem isInterface_eq : isInterface (groupsOf files) = isInterface (groupsOf files') := by
  funext r
  exact Bool.eq_iff_iff.2 ⟨h.isInterface_of, h.symm.isInterface_of⟩

/-- A type and its base are told alike from either arrangement. -/
theorem outlineOf_eq (root : String) {s s' : Site} (same : s'.bare = s.bare) :
    outlineOf root files' s'.alone = outlineOf root files s.alone := by
  obtain ⟨key, container, declaration, path, imports, aliases, types⟩ := s
  obtain ⟨key', container', declaration', path', imports', aliases', types'⟩ := s'
  simp only [Site.bare, SourceFile.bare, Site.mk.injEq, SourceFile.mk.injEq, and_true] at same
  obtain ⟨rfl, rfl, rfl, rfl, rfl, rfl⟩ := same
  have scope : scopeOf (scopesOf files')
        (Site.alone ⟨key', container', declaration', path', imports', aliases', types'⟩)
      = scopeOf (scopesOf files)
        (Site.alone ⟨key', container', declaration', path', imports', aliases', types⟩) := by
    rw [scopeOf, scopeOf, h.lookup_scopesOf, basePart_alone, basePart_alone]
    rfl
  have members (types : List TypeDeclaration) : Group.members
      (Site.alone ⟨key', container', declaration', path', imports', aliases', types⟩)
      = declaration'.members.flatMap (memberSymbols path') := List.append_nil _
  rw [outlineOf, outlineOf, edgesIn, edgesIn, edgesWith, edgesWith, scope, members, members,
    (h.agree root).divide_eq h.isInterface_eq, (h.agree root).resolve_eq, basePart_alone,
    basePart_alone]
  rfl

theorem outlined (root : String) : Outlined root files files' := by
  intro outline member
  obtain ⟨g, present, rfl⟩ := List.mem_map.1 member
  rw [h.groupsOf_eq] at present
  obtain ⟨s, site, rfl⟩ := List.mem_map.1 present
  obtain ⟨s', site', same⟩ := h.exists_site site
  rw [outlines, h.symm.groupsOf_eq]
  exact List.mem_map.2 ⟨s'.alone, List.mem_map.2 ⟨s', site', rfl⟩, h.outlineOf_eq root same⟩

theorem corresponds (root : String) (markers : MarkerSet) :
    Resolver.Corresponds ⟨.build root files, markers⟩ ⟨.build root files', markers⟩
      (SharedKey root files files') :=
  corresponds_build fun outline => ⟨h.outlined root outline, h.symm.outlined root outline⟩

theorem typeCount_eq (root : String) : (Compilation.build root files).declaredTypes.length
    = (Compilation.build root files').declaredTypes.length := by
  rw [declaredTypes_build, declaredTypes_build, h.groupsOf_eq, h.symm.groupsOf_eq, List.length_map,
    List.length_map, List.length_map, List.length_map]
  simpa using h.keys_perm.length_eq

end SameSites

end Binding

end ConventionLint
