import ConventionLint.Proofs.Binding.Graph

/-!
# Writing aliases out

An alias is only an abbreviation. When no target begins with an alias itself, files in which every
use of an alias is replaced by its target, and which declare no aliases any more, are built into the
same compilation, numbers and all.
-/
namespace ConventionLint

namespace WrittenType

def firstSegment (dotted : String) : String :=
  String.ofList (dotted.toList.takeWhile (· ≠ '.'))

def furtherSegments (dotted : String) : String :=
  String.ofList (dotted.toList.dropWhile (· ≠ '.'))

/-- A qualifier, its first segment replaced when that is an alias. -/
def inlineQualifier (aliases : List UsingAlias) (qualifier : String) : String :=
  match aliasTarget aliases (firstSegment qualifier) with
  | some target => target.dottedName ++ furtherSegments qualifier
  | none => qualifier

section

variable (aliases : List UsingAlias) (hidden : List String)

mutual

/-- A type with each use of an alias replaced by its target, but for the names in `hidden`. -/
def inline : WrittenType → WrittenType
  | ⟨some qualifier, name, arguments⟩ =>
    ⟨some (inlineQualifier aliases qualifier), name, inlineAll arguments⟩
  | ⟨none, name, []⟩ =>
    if name ∈ hidden then ⟨none, name, []⟩ else (aliasTarget aliases name).getD ⟨none, name, []⟩
  | ⟨none, name, first :: rest⟩ => ⟨none, name, inline first :: inlineAll rest⟩

def inlineAll : List WrittenType → List WrittenType
  | [] => []
  | t :: ts => inline t :: inlineAll ts

end

end

/-- What a type begins with: its name, or the first segment of its qualifier. -/
def leadingName (t : WrittenType) : String :=
  match t.qualifier with
  | some qualifier => firstSegment qualifier
  | none => t.name

section

variable (aliases : List UsingAlias)

mutual

/-- Whether neither the type nor any of its arguments begins with an alias. -/
def Unaliased : WrittenType → Prop
  | ⟨qualifier, name, arguments⟩ =>
    leadingName ⟨qualifier, name, arguments⟩ ∉ aliases.map (·.name) ∧ AllUnaliased arguments

def AllUnaliased : List WrittenType → Prop
  | [] => True
  | t :: ts => Unaliased t ∧ AllUnaliased ts

end

end

theorem cutFirst_eq (s : List Char) : Text.cutFirst '.' s =
    match s.dropWhile (· ≠ '.') with
    | [] => none
    | _ :: rest => some (s.takeWhile (· ≠ '.'), rest) := by
  induction s with
  | nil => rfl
  | cons c s ih =>
    rw [Text.cutFirst]
    by_cases dot : c = '.'
    · simp [dot]
    · rw [if_neg dot, ih, List.dropWhile_cons_of_pos (by simpa using dot),
        List.takeWhile_cons_of_pos (by simpa using dot)]
      cases s.dropWhile (· ≠ '.') <;> rfl

section

variable {aliases : List UsingAlias} {parameters : List String}
  {inTarget : WrittenType → WrittenType}

theorem aliasTarget_eq_none {name : String} (unknown : name ∉ aliases.map (·.name)) :
    aliasTarget aliases name = none := by
  rw [aliasTarget, Option.map_eq_none_iff, List.find?_eq_none]
  intro a member same
  exact unknown (List.mem_map.2 ⟨a, member, of_decide_eq_true same⟩)

theorem expandQualifier_eq (aliases : List UsingAlias) (qualifier : String) :
    expandQualifier aliases qualifier = inlineQualifier aliases qualifier := by
  rw [expandQualifier, inlineQualifier, Text.splitHead, cutFirst_eq, firstSegment, furtherSegments]
  have whole := List.takeWhile_append_dropWhile (p := (· ≠ '.')) (l := qualifier.toList)
  cases behind : qualifier.toList.dropWhile (· ≠ '.') with
  | nil =>
    rw [behind, List.append_nil] at whole
    rw [whole]
    dsimp only
    rw [String.ofList_toList]
    cases aliasTarget aliases qualifier with
    | none => rfl
    | some target => exact (String.append_empty).symm
  | cons c rest =>
    have dot : c = '.' := by
      have stopped := List.head?_dropWhile_not (· ≠ '.') qualifier.toList
      rw [behind] at stopped
      simpa using stopped
    subst dot
    dsimp only
    cases aliasTarget aliases (String.ofList (qualifier.toList.takeWhile (· ≠ '.'))) with
    | none => rfl
    | some target =>
      change target.dottedName ++ "." ++ String.ofList rest = _
      rw [String.append_assoc, ← List.singleton_append, String.ofList_append]

mutual

theorem expandWith_unaliased : ∀ t : WrittenType, t.Unaliased aliases →
    t.expandWith aliases parameters inTarget = t
  | ⟨some qualifier, name, arguments⟩, h => by
    have unknown : aliasTarget aliases (firstSegment qualifier) = none := aliasTarget_eq_none h.1
    rw [expandWith, expandAllWith_unaliased arguments h.2, expandQualifier_eq, inlineQualifier,
      unknown]
  | ⟨none, name, []⟩, h => by
    have unknown : aliasTarget aliases name = none := aliasTarget_eq_none h.1
    rw [expandWith, unknown]
    exact ite_self _
  | ⟨none, name, first :: rest⟩, h => by
    rw [expandWith, expandWith_unaliased first h.2.1, expandAllWith_unaliased rest h.2.2]

theorem expandAllWith_unaliased : ∀ ts : List WrittenType, AllUnaliased aliases ts →
    expandAllWith aliases parameters inTarget ts = ts
  | [], _ => rfl
  | t :: ts, h => by
    rw [expandAllWith, expandWith_unaliased t h.1, expandAllWith_unaliased ts h.2]

end

theorem expandLevels_unaliased {t : WrittenType} (h : t.Unaliased aliases) (levels : Nat) :
    t.expandLevels aliases parameters levels = t := by
  cases levels with
  | zero => rfl
  | succ levels => exact expandWith_unaliased t h

theorem allUnaliased_iff {ts : List WrittenType} :
    AllUnaliased aliases ts ↔ ∀ t ∈ ts, t.Unaliased aliases := by
  induction ts with
  | nil => simp [AllUnaliased]
  | cons t ts ih => simp [AllUnaliased, ih]

theorem Unaliased.arguments {t : WrittenType} (h : t.Unaliased aliases) :
    ∀ argument ∈ t.arguments, argument.Unaliased aliases := by
  obtain ⟨qualifier, name, arguments⟩ := t
  exact allUnaliased_iff.1 h.2

mutual

theorem unaliased_nil : ∀ t : WrittenType, t.Unaliased []
  | ⟨_, _, arguments⟩ => ⟨List.not_mem_nil, allUnaliased_nil arguments⟩

theorem allUnaliased_nil : ∀ ts : List WrittenType, AllUnaliased [] ts
  | [] => trivial
  | t :: ts => ⟨unaliased_nil t, allUnaliased_nil ts⟩

end

/-- Whether no target of an alias begins with an alias, nor does any of its arguments. -/
def Settled (aliases : List UsingAlias) : Prop :=
  ∀ a ∈ aliases, a.target.Unaliased aliases

theorem Settled.unaliased {name : String} {target : WrittenType} (settled : Settled aliases)
    (found : aliasTarget aliases name = some target) : target.Unaliased aliases := by
  obtain ⟨a, first, rfl⟩ := Option.map_eq_some_iff.1 found
  exact settled a (List.mem_of_find?_eq_some first)

mutual

theorem expandWith_settled (settled : Settled aliases)
    (fixed : ∀ t : WrittenType, t.Unaliased aliases → inTarget t = t) : ∀ t : WrittenType,
    t.expandWith aliases parameters inTarget = t.inline aliases parameters
  | ⟨some qualifier, name, arguments⟩ => by
    rw [expandWith, inline, expandQualifier_eq, expandAllWith_settled settled fixed arguments]
  | ⟨none, name, []⟩ => by
    rw [expandWith, inline, List.contains_eq_mem]
    by_cases hides : name ∈ parameters
    · rw [if_pos hides, if_pos (decide_eq_true hides)]
    · rw [if_neg hides, if_neg (by simpa using hides)]
      cases found : aliasTarget aliases name with
      | none => rfl
      | some target =>
        have same : target.arguments.map inTarget = target.arguments :=
          (List.map_congr_left (g := id) fun argument member =>
            fixed argument ((settled.unaliased found).arguments argument member)).trans
            (List.map_id _)
        dsimp only
        rw [same, Option.getD_some]
        cases target
        rfl
  | ⟨none, name, first :: rest⟩ => by
    rw [expandWith, inline, expandWith_settled settled fixed first,
      expandAllWith_settled settled fixed rest]

theorem expandAllWith_settled (settled : Settled aliases)
    (fixed : ∀ t : WrittenType, t.Unaliased aliases → inTarget t = t) : ∀ ts : List WrittenType,
    expandAllWith aliases parameters inTarget ts = inlineAll aliases parameters ts
  | [] => rfl
  | t :: ts => by
    rw [expandAllWith, inlineAll, expandWith_settled settled fixed t,
      expandAllWith_settled settled fixed ts]

end

/-- Where targets begin with no aliases, one replacement is all. -/
theorem expand_settled (settled : Settled aliases) (parameters : List String) (t : WrittenType) :
    t.expand aliases parameters = t.inline aliases parameters :=
  expandWith_settled settled (fun _ free => expandLevels_unaliased free aliases.length) t

theorem expand_nil (parameters : List String) (t : WrittenType) : t.expand [] parameters = t :=
  expandLevels_unaliased (unaliased_nil t) _

end

end WrittenType

section

variable (aliases : List UsingAlias) (sight : Binding.DeclaredKey → List String)

mutual

/-- A declaration with the aliases in all base lists replaced. The type parameters that `sight`
gives for a type hide aliases. -/
def TypeDeclaration.inline (qualifier : Option String) : TypeDeclaration → TypeDeclaration
  | ⟨name, kind, written, parameters, bases, members, nested, position, isPartial⟩ =>
    ⟨name, kind, written, parameters,
      bases.map (WrittenType.inline aliases (sight ⟨qualifier, name, parameters.length⟩)), members,
      TypeDeclaration.inlineAll (some (Text.qualify qualifier name)) nested, position, isPartial⟩

def TypeDeclaration.inlineAll (qualifier : Option String) :
    List TypeDeclaration → List TypeDeclaration
  | [] => []
  | d :: ds => d.inline qualifier :: TypeDeclaration.inlineAll qualifier ds

end

end

/-! Only base lists change. -/

section

variable (aliases : List UsingAlias) (sight : Binding.DeclaredKey → List String)
  (qualifier : Option String) (d : TypeDeclaration)

namespace TypeDeclaration

@[simp] theorem kind_inline : (d.inline aliases sight qualifier).kind = d.kind := by
  cases d
  rfl

@[simp] theorem qualifier_inline : (d.inline aliases sight qualifier).qualifier = d.qualifier := by
  cases d
  rfl

@[simp] theorem typeParameters_inline :
    (d.inline aliases sight qualifier).typeParameters = d.typeParameters := by
  cases d
  rfl

@[simp] theorem members_inline : (d.inline aliases sight qualifier).members = d.members := by
  cases d
  rfl

@[simp] theorem position_inline : (d.inline aliases sight qualifier).position = d.position := by
  cases d
  rfl

theorem baseList_inline : (d.inline aliases sight qualifier).baseList = d.baseList.map
    (WrittenType.inline aliases (sight ⟨qualifier, d.name, d.typeParameters.length⟩)) := by
  cases d
  rfl

end TypeDeclaration

end

def SourceFile.inline (sight : Binding.DeclaredKey → List String) (file : SourceFile) :
    SourceFile :=
  { file with
    aliases := []
    types := file.types.map fun d => d.inline file.aliases sight d.qualifier }

namespace Binding

mutual

/-- Aliases are looked at before a type is bound, not afterwards. -/
theorem ofWritten_withoutAliases {n : Names} {scope : Scope} : ∀ t : WrittenType,
    Reference.ofWritten n { scope with aliases := [] } t = Reference.ofWritten n scope t
  | ⟨qualifier, name, arguments⟩ => by
    rw [Reference.ofWritten, Reference.ofWritten, ofAllWritten_withoutAliases arguments]
    rfl

theorem ofAllWritten_withoutAliases {n : Names} {scope : Scope} : ∀ ts : List WrittenType,
    Reference.ofAllWritten n { scope with aliases := [] } ts = Reference.ofAllWritten n scope ts
  | [] => rfl
  | t :: ts => by
    rw [Reference.ofAllWritten, Reference.ofAllWritten, ofWritten_withoutAliases t,
      ofAllWritten_withoutAliases ts]

end

/-- The names of the type parameters that a type sees: its own and those of the types around it. A
type in several parts has those of its first part. -/
def parametersInSight (files : List SourceFile) (key : DeclaredKey) : List String :=
  (((scopesOf files).lookup key).getD []).map (·.2)

section

variable (sight : DeclaredKey → List String)

def Site.inline (s : Site) : Site :=
  ⟨s.key, s.container, s.declaration.inline s.file.aliases sight s.key.qualifier,
    s.file.inline sight⟩

mutual

theorem sitesOf_inline {file : SourceFile} : ∀ (qualifier : Option String)
    (container : Option DeclaredKey) (d : TypeDeclaration),
    sitesOf (file.inline sight) qualifier container (d.inline file.aliases sight qualifier)
      = (sitesOf file qualifier container d).map (Site.inline sight)
  | qualifier, container, ⟨name, kind, written, parameters, bases, members, nested, position,
      isPartial⟩ => by
    rw [TypeDeclaration.inline, sitesOf, sitesOf, List.map_cons, sitesOfAll_inline _ _ nested]
    rfl

theorem sitesOfAll_inline {file : SourceFile} : ∀ (qualifier : Option String)
    (container : Option DeclaredKey) (ds : List TypeDeclaration),
    sitesOfAll (file.inline sight) qualifier container
        (TypeDeclaration.inlineAll file.aliases sight qualifier ds)
      = (sitesOfAll file qualifier container ds).map (Site.inline sight)
  | _, _, [] => rfl
  | qualifier, container, d :: ds => by
    rw [TypeDeclaration.inlineAll, sitesOfAll, sitesOfAll, List.map_append,
      sitesOf_inline qualifier container d, sitesOfAll_inline qualifier container ds]

end

theorem sites_inline (files : List SourceFile) :
    sites (files.map (SourceFile.inline sight)) = (sites files).map (Site.inline sight) := by
  rw [sites, sites, List.flatMap_map, List.map_flatMap]
  refine List.flatMap_congr fun file _ => ?_
  rw [SourceFile.inline, List.flatMap_map, List.map_flatMap]
  refine List.flatMap_congr fun d _ => ?_
  rw [TypeDeclaration.qualifier_inline]
  exact sitesOf_inline sight d.qualifier none d

theorem groupsOf_inline (files : List SourceFile) :
    groupsOf (files.map (SourceFile.inline sight))
      = (groupsOf files).map (Group.map (Site.inline sight)) := by
  have keeps : ∀ s : Site, (s.inline sight).key = s.key := fun _ => rfl
  rw [groupsOf, sites_inline, groups_map keeps, groupsOf]

end

section

variable (sight : DeclaredKey → List String) (g : Group)

theorem members_inline : (g.map (Site.inline sight)).members = g.members := by
  have parts : (g.map (Site.inline sight)).parts = g.parts.map (Site.inline sight) := rfl
  rw [Group.members, Group.members, parts, List.flatMap_map]
  exact List.flatMap_congr fun s _ => by
    rw [Site.inline, TypeDeclaration.members_inline]
    rfl

theorem kind_inline : (g.map (Site.inline sight)).kind = g.kind := by
  simp [Group.kind, Group.map, Site.inline]

theorem ownParameters_inline : (g.map (Site.inline sight)).ownParameters = g.ownParameters := by
  simp [Group.ownParameters, Group.map, Site.inline]

theorem basePart_inline : (g.map (Site.inline sight)).basePart = g.basePart.inline sight := by
  have parts : (g.map (Site.inline sight)).parts = g.parts.map (Site.inline sight) := rfl
  have empty : (fun s : Site => !s.declaration.baseList.isEmpty) ∘ Site.inline sight
      = fun s => !s.declaration.baseList.isEmpty := by
    funext s
    simp [Site.inline, TypeDeclaration.baseList_inline]
  rw [Group.basePart, parts, List.find?_map, empty, Group.basePart]
  cases g.parts.find? (fun s => !s.declaration.baseList.isEmpty) <;> rfl

theorem declaredSymbol_inline (keys : List SymbolKey) (edges : Edges) :
    declaredSymbol keys (g.map (Site.inline sight)) edges = declaredSymbol keys g edges := by
  rw [declaredSymbol, members_inline, kind_inline]
  simp [declaredSymbol, Group.map, Site.inline, SourceFile.inline]

end

section

variable (sight : DeclaredKey → List String) (files : List SourceFile)

theorem isInterface_inline (gs : List Group) :
    isInterface (gs.map (Group.map (Site.inline sight))) = isInterface gs := by
  funext r
  unfold isInterface
  split
  · rw [List.any_map]
    congr 1
    funext g
    rw [Function.comp_apply, kind_inline]
    rfl
  · rfl
  · rfl

theorem divide_inline (n : Names) (gs : List Group) (kind : TypeKind) (written : List Reference) :
    divide n (gs.map (Group.map (Site.inline sight))) kind written = divide n gs kind written := by
  unfold divide
  rw [isInterface_inline]

theorem parameterScopes_inline (gs : List Group) :
    parameterScopes (gs.map (Group.map (Site.inline sight))) = parameterScopes gs := by
  rw [parameterScopes, parameterScopes, List.foldl_map]
  simp only [ownParameters_inline]
  rfl

theorem namesOf_inline (root : String) :
    namesOf root (files.map (SourceFile.inline sight)) = namesOf root files := by
  simp [namesOf, groupsOf_inline, Function.comp_def, Group.map]

theorem scopesOf_inline :
    scopesOf (files.map (SourceFile.inline sight)) = scopesOf files := by
  rw [scopesOf, groupsOf_inline, parameterScopes_inline, scopesOf]

end

section

variable {root : String} {files : List SourceFile} {g : Group}

theorem resolve_inline (n : Names) {scope : Scope} (settled : WrittenType.Settled scope.aliases)
    (t : WrittenType) : Reference.resolve n { scope with aliases := [] }
        (t.inline scope.aliases (scope.parameters.map (·.2)))
      = Reference.resolve n scope t := by
  rw [Reference.resolve, Reference.resolve, WrittenType.expand_nil,
    WrittenType.expand_settled settled]
  exact ofWritten_withoutAliases _

theorem scopeOf_inline (sight : DeclaredKey → List String) (g : Group)
    (scopes : List (DeclaredKey × List (DeclaredKey × String))) :
    scopeOf scopes (g.map (Site.inline sight)) = { scopeOf scopes g with aliases := [] } := by
  rw [scopeOf, basePart_inline]
  rfl

theorem baseList_inline (member : g ∈ groupsOf files) :
    (g.basePart.inline (parametersInSight files)).declaration.baseList
      = g.basePart.declaration.baseList.map (WrittenType.inline (scopeOf (scopesOf files) g).aliases
          ((scopeOf (scopesOf files) g).parameters.map (·.2))) := by
  obtain ⟨present, same⟩ := basePart_of_mem_groups member
  have keyed : g.basePart.key = _ := (of_mem_sites present).1
  rw [Site.inline, TypeDeclaration.baseList_inline, ← keyed, same]
  rfl

theorem edgesIn_inline (settled : ∀ f ∈ files, WrittenType.Settled f.aliases)
    (member : g ∈ groupsOf files) :
    edgesIn root (files.map (SourceFile.inline (parametersInSight files)))
        (g.map (Site.inline (parametersInSight files)))
      = edgesIn root files g := by
  have inside := (of_mem_sites (basePart_of_mem_groups member).1).2
  have bound : (fun t => Reference.resolve (namesOf root files)
      { scopeOf (scopesOf files) g with aliases := [] }
      (t.inline (scopeOf (scopesOf files) g).aliases
        ((scopeOf (scopesOf files) g).parameters.map (·.2))))
      = Reference.resolve (namesOf root files) (scopeOf (scopesOf files) g) :=
    funext (resolve_inline _ (settled _ inside))
  rw [edgesIn, edgesWith, namesOf_inline, scopesOf_inline, kind_inline, scopeOf_inline,
    basePart_inline, baseList_inline member, List.map_map, Function.comp_def, bound,
    groupsOf_inline, divide_inline]
  rfl

end

end Binding

open Binding

/-- Files with their aliases written out are built into the same compilation, numbers and all. -/
theorem Compilation.build_inline (root : String) (files : List SourceFile)
    (settled : ∀ f ∈ files, WrittenType.Settled f.aliases) :
    build root (files.map (SourceFile.inline (parametersInSight files))) = build root files := by
  let inlined := files.map (SourceFile.inline (parametersInSight files))
  have edges : (groupsOf inlined).map (edgesIn root inlined)
      = (groupsOf files).map (edgesIn root files) := by
    rw [groupsOf_inline, List.map_map]
    exact List.map_congr_left fun g member => edgesIn_inline settled member
  have keys : keysOf root inlined = keysOf root files := by
    rw [keysOf, edges, keysOf, groupsOf_inline]
    simp [symbolKeys, Function.comp_def, Group.map]
  have declared : List.zipWith (declaredSymbol (keysOf root inlined)) (groupsOf inlined)
      ((groupsOf inlined).map (edgesIn root inlined))
      = List.zipWith (declaredSymbol (keysOf root files)) (groupsOf files)
          ((groupsOf files).map (edgesIn root files)) := by
    rw [keys, edges, groupsOf_inline, List.zipWith_map_left]
    simp only [declaredSymbol_inline]
  have paths : inlined.map (·.path) = files.map (·.path) := by
    simp [inlined, SourceFile.inline, Function.comp_def]
  have through (files : List SourceFile) : build root files
      = .ofTypes (List.zipWith (declaredSymbol (keysOf root files)) (groupsOf files)
          ((groupsOf files).map (edgesIn root files))
          ++ (keysOf root files).filterMap (referredSymbol (keysOf root files)))
        (files.map (·.path)) := rfl
  rw [through, through, declared, keys, paths]

def orderFile (aliases : List UsingAlias) (bases : List WrittenType) : SourceFile where
  path := ⟨"a.cs"⟩
  imports := []
  aliases := aliases
  types := [⟨"Order", .plainClass, none, ["T"], bases, [], [], ⟨1, 7⟩, false⟩]

/-- Aliases of a namespace and of a type with an argument, and one that a type parameter hides. -/
def orderAliases : List UsingAlias :=
  [⟨"Msg", ⟨some "Lib", "Messaging", []⟩⟩,
   ⟨"Base", ⟨some "Lib.Core", "Box", [⟨none, "Item", []⟩]⟩⟩,
   ⟨"T", ⟨none, "Text", []⟩⟩]

theorem settled_orderAliases : WrittenType.Settled orderAliases := by
  have apart : ∀ name ∈ ["Lib", "Item", "Text"], name ∉ orderAliases.map (·.name) := by decide
  intro a member
  simp only [orderAliases, List.mem_cons, List.not_mem_nil, or_false] at member
  rcases member with rfl | rfl | rfl
  · exact ⟨apart "Lib" (by simp), trivial⟩
  · exact ⟨apart "Lib" (by simp), ⟨apart "Item" (by simp), trivial⟩, trivial⟩
  · exact ⟨apart "Text" (by simp), trivial⟩

/-- `Base` and the `Base` and `Msg` inside another type are written out, and the type parameter `T`
is not. -/
theorem Compilation.build_inline_order :
    let aliased := orderFile orderAliases
      [⟨none, "Base", []⟩, ⟨some "Msg.Inner", "IHandle", [⟨none, "Base", []⟩, ⟨none, "T", []⟩]⟩]
    let written := orderFile []
      [⟨some "Lib.Core", "Box", [⟨none, "Item", []⟩]⟩,
       ⟨some "Lib.Messaging.Inner", "IHandle",
         [⟨some "Lib.Core", "Box", [⟨none, "Item", []⟩]⟩, ⟨none, "T", []⟩]⟩]
    (∀ f ∈ [aliased], WrittenType.Settled f.aliases) ∧
      [aliased].map (SourceFile.inline (parametersInSight [aliased])) = [written] ∧
      build "System.Object" [written] = build "System.Object" [aliased] := by
  intro aliased written
  have settled : ∀ f ∈ [aliased], WrittenType.Settled f.aliases := by
    intro f member
    exact List.mem_singleton.1 member ▸ settled_orderAliases
  have inlined : [aliased].map (SourceFile.inline (parametersInSight [aliased])) = [written] := by
    rfl
  exact ⟨settled, inlined, inlined ▸ build_inline "System.Object" [aliased] settled⟩

end ConventionLint
