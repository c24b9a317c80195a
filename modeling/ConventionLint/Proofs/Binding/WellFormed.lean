import ConventionLint.Proofs.Binding.Bases
import ConventionLint.Proofs.Text.Splitting

/-!
# Well-formed compilations

Look-ups in a built compilation do not check what they find: a reference leads to a type that takes
its arguments, a container stands before what it contains, and no two types are the same one. All of
this is so for the keys before there are numbers, and places among distinct keys carry it over.
-/
namespace ConventionLint

/-- A reference that leads, as do its arguments at any depth, to a type with as many type parameters
as there are arguments. -/
inductive TypeRef.Bound (c : Compilation) : TypeRef → Prop
  | intro {name : String} {target : TypeId} {arguments : List TypeRef} {t : TypeSymbol} :
      c.get? target = some t → t.typeParameters.length = arguments.length →
      (∀ a ∈ arguments, Bound c a) → Bound c ⟨name, some target, arguments⟩

def TypeSymbol.references (t : TypeSymbol) : List TypeRef :=
  t.base.toList ++ t.interfaces

/-- The imports of a type put together with `;` in between. -/
def TypeSymbol.joinedImports (t : TypeSymbol) : List Char :=
  Text.joinWith ';' (t.imports.map String.toList)

/-- The imports of a file can be told from what they are put together to. -/
def SourceFile.ImportsSeparable (file : SourceFile) : Prop :=
  ∀ i ∈ file.imports, i ≠ "" ∧ ';' ∉ i.toList

instance (file : SourceFile) : Decidable file.ImportsSeparable :=
  inferInstanceAs (Decidable (∀ i ∈ file.imports, i ≠ "" ∧ ';' ∉ i.toList))

open Binding in
/-- What every look-up relies on. -/
structure Compilation.WellFormed (c : Compilation) : Prop where
  numbered : ∀ (i : Nat) (t : TypeSymbol), c.types[i]? = some t → t.id = i
  declaredFirst : ∀ t ∈ c.types, ∀ t' ∈ c.types, t.kind.isDeclared = true →
    t'.kind.isDeclared = false → t.id < t'.id
  bound : ∀ t ∈ c.types, ∀ r ∈ t.references, r.Bound c
  based : ∀ t ∈ c.types, t.base.isSome ↔ t.kind = .plainClass ∨ t.kind = .record
  contained : ∀ t ∈ c.declaredTypes, ∀ id, t.container = some id →
    ∃ o ∈ c.declaredTypes, o.id = id ∧ o.id < t.id ∧ o.qualifiedName = t.qualifier
  declaredApart : ∀ t ∈ c.declaredTypes, ∀ t' ∈ c.declaredTypes,
    declaredKeyOf t = declaredKeyOf t' → t = t'
  externalsApart : ∀ t ∈ c.types, ∀ t' ∈ c.types, t.kind = .external → t'.kind = .external →
    declaredKeyOf t = declaredKeyOf t' → (∀ i, i ∈ t.imports ↔ i ∈ t'.imports) → t = t'
  parametersApart : ∀ t ∈ c.types, ∀ t' ∈ c.types, t.kind = .typeParameter →
    t'.kind = .typeParameter → t.container = t'.container → t.name = t'.name → t = t'

namespace Text

theorem mem_dropRepeats {a : String} {l : List String} : a ∈ dropRepeats l ↔ a ∈ l := by
  fun_induction dropRepeats l with
  | case1 b rest ih => simp [ih]
  | case2 b c rest other ih => simp [ih]
  | case3 l => rfl

theorem pairwise_dropRepeats {l : List String} (sorted : l.Pairwise (· ≤ ·)) :
    (dropRepeats l).Pairwise (· < ·) := by
  fun_induction dropRepeats l with
  | case1 b rest ih => exact ih (List.pairwise_cons.1 sorted).2
  | case2 b c rest other ih =>
    obtain ⟨first, behind⟩ := List.pairwise_cons.1 sorted
    refine List.pairwise_cons.2 ⟨fun a member => ?_, ih behind⟩
    have below : b < c := Std.lt_of_le_of_ne (first c (by simp)) other
    rcases List.mem_cons.1 (mem_dropRepeats.1 member) with rfl | later
    · exact below
    · exact Std.lt_of_lt_of_le below ((List.pairwise_cons.1 behind).1 a later)
  | case3 l short =>
    match l with
    | [] => exact .nil
    | [a] => exact List.pairwise_singleton ..
    | a :: b :: rest => exact absurd rfl (short a b rest)

theorem mem_sortedSet {a : String} {l : List String} : a ∈ sortedSet l ↔ a ∈ l := by
  rw [sortedSet, mem_dropRepeats, List.mem_mergeSort]

theorem pairwise_sortedSet (l : List String) : (sortedSet l).Pairwise (· < ·) := by
  refine pairwise_dropRepeats ?_
  have sorted : (l.mergeSort fun a b => decide (a ≤ b)).Pairwise fun a b => decide (a ≤ b) = true :=
    List.pairwise_mergeSort (fun a b c => by simpa using String.le_trans)
      (fun a b => by simpa using String.le_total a b) l
  exact sorted.imp fun {a b} below => of_decide_eq_true below

/-- Texts in order, each once, are told by which they are. -/
theorem eq_of_pairwise_lt {l l' : List String} (sorted : l.Pairwise (· < ·))
    (sorted' : l'.Pairwise (· < ·)) (same : ∀ a, a ∈ l ↔ a ∈ l') : l = l' := by
  have nodup {l : List String} (sorted : l.Pairwise (· < ·)) : l.Nodup :=
    sorted.imp fun {a b} (below : a < b) (equal : a = b) => String.lt_irrefl b (equal ▸ below)
  have perm : l.Perm l' := (List.perm_ext_iff_of_nodup (nodup sorted) (nodup sorted')).2 same
  exact perm.eq_of_pairwise (fun a b _ _ below above =>
    absurd (String.lt_trans below above) (String.lt_irrefl a)) sorted sorted'

end Text

namespace Binding

def SymbolKey.arity : SymbolKey → Nat
  | .declared key => key.arity
  | .external _ _ arity _ => arity
  | .parameter _ _ => 0

section

variable {n : Names} {scope : Scope} {place : Option String} {name : String} {arity : Nat}
  {key : SymbolKey}

theorem Names.arity_of_lookup (found : n.lookup place name arity = some key) :
    key.arity = arity := by
  obtain ⟨-, rfl⟩ := Names.lookup_eq_some_iff.1 found
  rfl

theorem Names.arity_root : n.root.arity = 0 := by
  rcases n.root_cases with declared | external
  · exact Names.arity_of_lookup declared
  · exact external ▸ rfl

theorem Names.arity_bind (t : WrittenType) : (n.bind scope t).arity = t.arguments.length := by
  rcases n.bind_cases scope t with
    ⟨none, root | ⟨framework, external⟩ | ⟨p, -, parameter⟩⟩ | ⟨place, found⟩ | elsewhere
  · rw [root, none, Names.arity_root, List.length_nil]
  · rw [external, none, List.length_nil, SymbolKey.arity]
  · rw [parameter, none, List.length_nil, SymbolKey.arity]
  · exact Names.arity_of_lookup found
  · exact elsewhere ▸ rfl

end

/-- A reference that gives every type on it as many arguments as it takes. -/
inductive Reference.Fits : Reference → Prop
  | intro {name : String} {target : SymbolKey} {arguments : List Reference} :
      target.arity = arguments.length → (∀ a ∈ arguments, Fits a) → Fits ⟨name, target, arguments⟩

theorem Reference.length_ofAllWritten (n : Names) (scope : Scope) (ts : List WrittenType) :
    (ofAllWritten n scope ts).length = ts.length := by
  induction ts with
  | nil => rfl
  | cons t ts ih => rw [ofAllWritten, List.length_cons, List.length_cons, ih]

mutual

theorem Reference.fits_ofWritten {n : Names} {scope : Scope} :
    ∀ t : WrittenType, (ofWritten n scope t).Fits
  | ⟨qualifier, name, arguments⟩ => by
    rw [ofWritten]
    refine .intro ?_ (Reference.fits_ofAllWritten arguments)
    rw [Names.arity_bind, length_ofAllWritten]

theorem Reference.fits_ofAllWritten {n : Names} {scope : Scope} :
    ∀ ts : List WrittenType, ∀ r ∈ ofAllWritten n scope ts, r.Fits
  | [] => by simp [ofAllWritten]
  | t :: ts => by
    intro r member
    rw [ofAllWritten] at member
    rcases List.mem_cons.1 member with rfl | later
    · exact Reference.fits_ofWritten t
    · exact Reference.fits_ofAllWritten ts r later

end

section

variable {root : String} {files : List SourceFile} {g : Group} {key : SymbolKey} {t : TypeSymbol}

theorem fits_of_mem_edgesIn {r : Reference} (member : r ∈ (edgesIn root files g).references) :
    r.Fits := by
  rcases (of_mem_divide member).1 with written | rfl
  · obtain ⟨t, -, rfl⟩ := List.mem_map.1 written
    exact Reference.fits_ofWritten _
  · exact .intro Names.arity_root (by simp)

theorem arity_of_symbolOf (found : symbolOf root files key = some t) :
    t.typeParameters.length = key.arity := by
  cases key with
  | declared key =>
    obtain ⟨g, named, rfl⟩ := Option.map_eq_some_iff.1 found
    have same : g.key = key := by simpa using List.find?_some named
    exact same ▸ (arity_of_mem_groupsOf (List.mem_of_find?_eq_some named)).symm
  | external qualifier name arity imports =>
    obtain rfl := Option.some.inj found
    simp [SymbolKey.arity]
  | parameter owner name =>
    obtain rfl := Option.some.inj found
    rfl

theorem edgesOfAll_eq_map (keys : List SymbolKey) (rs : List Reference) :
    edgesOfAll keys rs = rs.map (edgeOf keys) := by
  induction rs with
  | nil => rfl
  | cons r rs ih => rw [edgesOfAll, List.map_cons, ih]

/-- A reference of which all keys have types becomes one that leads to these types. -/
theorem bound_edgeOf {r : Reference} (fits : r.Fits)
    (known : ∀ key ∈ r.keys, key ∈ keysOf root files) :
    (edgeOf (keysOf root files) r).Bound (.build root files) := by
  induction fits with
  | @intro name target arguments arity _ ih =>
    rw [Reference.keys] at known
    have present : target ∈ keysOf root files := known target (by simp)
    obtain ⟨t, found⟩ := exists_symbolOf present
    rw [edgeOf, edgesOfAll_eq_map]
    refine .intro ((get?_build present).trans found) ?_ fun a member => ?_
    · rw [arity_of_symbolOf found, arity, List.length_map]
    · obtain ⟨argument, inside, rfl⟩ := List.mem_map.1 member
      refine ih argument inside fun key bound => known key (List.mem_append_left _ ?_)
      exact Reference.mem_keysOfAll.2 ⟨argument, inside, bound⟩

theorem bound_of_mem_types (member : t ∈ (Compilation.build root files).types) :
    ∀ r ∈ t.references, r.Bound (.build root files) := by
  obtain ⟨key, -, found⟩ := mem_types_build.1 member
  intro r link
  cases key with
  | declared key =>
    obtain ⟨g, named, rfl⟩ := Option.map_eq_some_iff.1 found
    have present : g ∈ groupsOf files := List.mem_of_find?_eq_some named
    have image : r ∈ (edgesIn root files g).references.map (edgeOf (keysOf root files)) := by
      rw [TypeSymbol.references, declaredSymbol, edgesOfAll_eq_map] at link
      rwa [Edges.references, List.map_append, ← Option.toList_map]
    obtain ⟨edge, among, rfl⟩ := List.mem_map.1 image
    exact bound_edgeOf (fits_of_mem_edgesIn among) fun key bound =>
      mem_keysOf_of_mem_edges present ((of_mem_divide among).2 key bound)
  | external | parameter =>
    obtain rfl := Option.some.inj found
    cases link

end

/-- A site whose container, if it has one, is known and gives it its qualifier. -/
def Site.InKnown (known : List DeclaredKey) (s : Site) : Prop :=
  ∀ key, s.container = some key →
    key ∈ known ∧ s.key.qualifier = some (Text.qualify key.qualifier key.name)

/-- Sites each of which has its container among those before it. -/
def Nested (known : List DeclaredKey) : List Site → Prop
  | [] => True
  | s :: ss => s.InKnown known ∧ Nested (known ++ [s.key]) ss

section

variable {known : List DeclaredKey} {file : SourceFile} {g : Group} {key : DeclaredKey}

theorem nested_append {ss ss' : List Site} :
    Nested known (ss ++ ss') ↔ Nested known ss ∧ Nested (known ++ ss.map (·.key)) ss' := by
  induction ss generalizing known with
  | nil => simp [Nested]
  | cons s ss ih => simp [Nested, ih, and_assoc]

mutual

theorem nested_sitesOf : ∀ {known : List DeclaredKey} {qualifier : Option String}
    {container : Option DeclaredKey} (d : TypeDeclaration),
    (∀ key, container = some key →
      key ∈ known ∧ qualifier = some (Text.qualify key.qualifier key.name)) →
    Nested known (sitesOf file qualifier container d)
  | known, qualifier, container, ⟨name, kind, written, parameters, bases, members, nested, position,
      isPartial⟩, inside => by
    rw [sitesOf]
    refine ⟨inside, nested_sitesOfAll nested ?_⟩
    intro key own
    obtain rfl := Option.some.inj own
    exact ⟨List.mem_append_right _ (by simp), rfl⟩

theorem nested_sitesOfAll : ∀ {known : List DeclaredKey} {qualifier : Option String}
    {container : Option DeclaredKey} (ds : List TypeDeclaration),
    (∀ key, container = some key →
      key ∈ known ∧ qualifier = some (Text.qualify key.qualifier key.name)) →
    Nested known (sitesOfAll file qualifier container ds)
  | _, _, _, [], _ => trivial
  | known, qualifier, container, d :: ds, inside => by
    rw [sitesOfAll, nested_append]
    refine ⟨nested_sitesOf d inside, nested_sitesOfAll ds fun key outer => ?_⟩
    exact ⟨List.mem_append_left _ (inside key outer).1, (inside key outer).2⟩

end

theorem nested_sites (files : List SourceFile) : Nested [] (sites files) := by
  have flat {α : Type} {as : List α} {f : α → List Site}
      (each : ∀ a ∈ as, ∀ known, Nested known (f a)) (known : List DeclaredKey) :
      Nested known (as.flatMap f) := by
    induction as generalizing known with
    | nil => trivial
    | cons a as ih =>
      rw [List.flatMap_cons, nested_append]
      exact ⟨each a (by simp) known, ih (fun b member => each b (List.mem_cons_of_mem _ member)) _⟩
  exact flat (fun file _ => flat fun d _ known => nested_sitesOf d (by simp)) []

/-- The container of a type is among the types before it. -/
theorem container_before {ss : List Site} (nested : Nested [] ss) (member : g ∈ groups ss)
    (inside : g.first.container = some key) :
    g.key.qualifier = some (Text.qualify key.qualifier key.name) ∧
      ∃ before behind, (groups ss).map (·.key) = before ++ g.key :: behind ∧ key ∈ before := by
  induction ss using List.reverseRecOn generalizing g with
  | nil => cases member
  | append_singleton ss s ih =>
    rw [nested_append, Nested, List.nil_append] at nested
    obtain ⟨earlier, here, -⟩ := nested
    -- a further site leaves the keys as they are or adds one behind them
    have grown (before behind : List DeclaredKey)
        (split : (groups ss).map (·.key) = before ++ g.key :: behind) :
        ∃ behind', (groups (ss ++ [s])).map (·.key) = before ++ g.key :: behind' := by
      rw [groups_concat, map_key_addSite, addKey, split]
      split
      · exact ⟨behind, rfl⟩
      · exact ⟨behind ++ [s.key], by simp⟩
    have extend (old : g.key.qualifier = some (Text.qualify key.qualifier key.name) ∧
        ∃ before behind, (groups ss).map (·.key) = before ++ g.key :: behind ∧ key ∈ before) :
        g.key.qualifier = some (Text.qualify key.qualifier key.name) ∧
          ∃ before behind, (groups (ss ++ [s])).map (·.key) = before ++ g.key :: behind ∧
            key ∈ before := by
      obtain ⟨qualifier, before, behind, split, present⟩ := old
      obtain ⟨behind', split'⟩ := grown before behind split
      exact ⟨qualifier, before, behind', split', present⟩
    rw [groups_concat] at member
    rcases of_mem_addSite (groups_nodup ss) member with
      ⟨old, -⟩ | ⟨h, old, -, rfl⟩ | ⟨none, rfl⟩
    · exact extend (ih earlier old inside)
    · exact extend (@ih h earlier old inside)
    · obtain ⟨known, qualifier⟩ := here key inside
      refine ⟨qualifier, (groups ss).map (·.key), [], ?_, mem_map_key_groups.2 known⟩
      rw [groups_concat, map_key_addSite, addKey, if_neg]
      intro present
      obtain ⟨h, old, same⟩ := List.mem_map.1 present
      exact none h old same

end

section

variable {root : String} {files : List SourceFile} {g : Group} {t t' : TypeSymbol}

/-- What stands further in front has a smaller number. -/
theorem idOf_lt {keys before behind : List SymbolKey} {key earlier : SymbolKey}
    (distinct : keys.Nodup) (split : keys = before ++ behind) (first : earlier ∈ before)
    (later : key ∈ behind) : idOf keys earlier < idOf keys key := by
  subst split
  have absent : key ∉ before := fun present =>
    (List.nodup_append.1 distinct).2.2 key present key later rfl
  rw [idOf, idOf, List.idxOf_append_of_mem first, List.idxOf_append_of_notMem absent]
  exact Nat.lt_add_right _ (List.idxOf_lt_length_iff.2 first)

theorem declared_first (member : t ∈ (Compilation.build root files).types)
    (member' : t' ∈ (Compilation.build root files).types) (declared : t.kind.isDeclared = true)
    (referred : t'.kind.isDeclared = false) : t.id < t'.id := by
  obtain ⟨key, present, found⟩ := mem_types_build.1 member
  obtain ⟨key', present', found'⟩ := mem_types_build.1 member'
  obtain ⟨g, among, rfl⟩ := declared_of_symbolOf found declared
  obtain ⟨others, split, -⟩ := exists_referred root files
  have undeclared : key' ∉ (groupsOf files).map (SymbolKey.declared ·.key) := by
    intro inside
    obtain ⟨h, among', rfl⟩ := List.mem_map.1 inside
    rw [symbolOf_declared among'] at found'
    rw [← Option.some.inj found'] at referred
    exact Bool.false_ne_true (referred.symm.trans (isDeclared_kind h))
  have later : key' ∈ others := by
    rw [split] at present'
    exact (List.mem_append.1 present').resolve_left undeclared
  rw [id_of_symbolOf found, id_of_symbolOf found']
  exact idOf_lt keysOf_nodup split (List.mem_map.2 ⟨g, among, rfl⟩) later

theorem qualifiedName_of_isDeclared (declared : t.kind.isDeclared = true) :
    t.qualifiedName = some (Text.qualify t.qualifier t.name) := by
  obtain ⟨id, name, qualifier, kind, parameters, base, interfaces, members, location, imports,
    container⟩ := t
  cases kind <;> cases qualifier <;> first | rfl | cases declared

theorem contained_before (member : t ∈ (Compilation.build root files).declaredTypes) {id : TypeId}
    (inside : t.container = some id) :
    ∃ o ∈ (Compilation.build root files).declaredTypes, o.id = id ∧ o.id < t.id ∧
      o.qualifiedName = t.qualifier := by
  rw [declaredTypes_build] at member
  obtain ⟨g, among, rfl⟩ := List.mem_map.1 member
  obtain ⟨key, outer, rfl⟩ := Option.map_eq_some_iff.1 inside
  obtain ⟨qualifier, before, behind, split, present⟩ :=
    container_before (nested_sites files) among outer
  obtain ⟨h, among', rfl⟩ : ∃ h ∈ groupsOf files, h.key = key := by
    rw [← List.mem_map, groupsOf, split]
    exact List.mem_append_left _ present
  have keys : (groupsOf files).map (SymbolKey.declared ·.key)
      = before.map .declared ++ .declared g.key :: behind.map .declared := by
    rw [← List.map_cons, ← List.map_append, ← split, List.map_map]
    rfl
  obtain ⟨others, whole, -⟩ := exists_referred root files
  rw [keys, List.append_assoc] at whole
  refine ⟨_, mem_declaredTypes_build among', rfl, ?_, ?_⟩
  · exact idOf_lt keysOf_nodup whole (List.mem_map.2 ⟨_, present, rfl⟩) (by simp)
  · exact (qualifiedName_of_isDeclared (isDeclared_kind h)).trans qualifier.symm

/-- Only classes and records have a base. -/
theorem isSome_base_iff (member : t ∈ (Compilation.build root files).types) :
    t.base.isSome ↔ t.kind = .plainClass ∨ t.kind = .record := by
  obtain ⟨key, -, found⟩ := mem_types_build.1 member
  cases key with
  | declared key =>
    obtain ⟨g, -, rfl⟩ := Option.map_eq_some_iff.1 found
    by_cases classlike : g.IsClasslike
    · simpa [declaredSymbol, base_edgesIn root classlike, Group.IsClasslike] using classlike
    · simpa [declaredSymbol, base_edgesIn_of_not classlike, Group.IsClasslike] using classlike
  | external | parameter =>
    obtain rfl := Option.some.inj found
    simp

end

/-- The namespaces in which an unqualified external type may be declared. -/
def SymbolKey.imports : SymbolKey → List String
  | .external _ _ _ imports => imports
  | .declared _ | .parameter _ _ => []

section

variable {n : Names} {scope : Scope} {place : Option String} {name : String} {arity : Nat}
  {key : SymbolKey}

theorem Names.imports_of_lookup (found : n.lookup place name arity = some key) :
    key.imports = [] := by
  obtain ⟨-, rfl⟩ := Names.lookup_eq_some_iff.1 found
  rfl

theorem Names.imports_root : n.root.imports = [] := by
  rcases n.root_cases with declared | external
  · exact Names.imports_of_lookup declared
  · exact external ▸ rfl

theorem Names.imports_bind (t : WrittenType) : (n.bind scope t).imports = [] ∨
    (n.bind scope t).imports = Text.sortedSet scope.imports := by
  rcases n.bind_cases scope t with
    ⟨-, root | ⟨framework, external⟩ | ⟨p, -, parameter⟩⟩ | ⟨place, found⟩ | elsewhere
  · exact .inl (root ▸ Names.imports_root)
  · exact .inl (external ▸ rfl)
  · exact .inl (parameter ▸ rfl)
  · exact .inl (Names.imports_of_lookup found)
  · rw [elsewhere, Scope.elsewhere, SymbolKey.imports]
    split
    · exact .inl rfl
    · exact .inr rfl

end

section

variable {root : String} {files : List SourceFile} {key : SymbolKey} {t t' : TypeSymbol}

theorem imports_of_mem_keysOf (member : key ∈ keysOf root files) :
    key.imports = [] ∨ ∃ file ∈ files, key.imports = Text.sortedSet file.imports := by
  rcases mem_keysOf_cases member with ⟨g, -, rfl⟩ | rfl | ⟨g, present, t, rfl⟩
  · exact .inl rfl
  · exact .inl Names.imports_root
  · have inside := (of_mem_sites (basePart_of_mem_groups present).1).2
    exact (Names.imports_bind t).imp_right fun imported => ⟨_, inside, imported⟩

theorem pairwise_imports (member : key ∈ keysOf root files) : key.imports.Pairwise (· < ·) := by
  rcases imports_of_mem_keysOf member with none | ⟨file, -, imported⟩
  · exact none ▸ .nil
  · exact imported ▸ Text.pairwise_sortedSet file.imports

theorem exists_file_of_mem_imports (member : key ∈ keysOf root files) {i : String}
    (among : i ∈ key.imports) : ∃ file ∈ files, i ∈ file.imports := by
  rcases imports_of_mem_keysOf member with none | ⟨file, present, imported⟩
  · cases none ▸ among
  · exact ⟨file, present, Text.mem_sortedSet.1 (imported ▸ among)⟩

theorem declared_apart (member : t ∈ (Compilation.build root files).declaredTypes)
    (member' : t' ∈ (Compilation.build root files).declaredTypes)
    (same : declaredKeyOf t = declaredKeyOf t') : t = t' := by
  rw [declaredTypes_build] at member member'
  obtain ⟨g, among, rfl⟩ := List.mem_map.1 member
  obtain ⟨h, among', rfl⟩ := List.mem_map.1 member'
  rw [declaredKeyOf_declaredSymbol among, declaredKeyOf_declaredSymbol among'] at same
  rw [eq_of_mem_groups among among' same]

theorem key_of_external (found : symbolOf root files key = some t) (external : t.kind = .external) :
    key = .external t.qualifier t.name t.typeParameters.length t.imports := by
  cases key with
  | declared key =>
    obtain ⟨g, -, rfl⟩ := Option.map_eq_some_iff.1 found
    have declared := isDeclared_kind g
    rw [show g.kind = .external from external] at declared
    cases declared
  | external =>
    obtain rfl := Option.some.inj found
    simp
  | parameter =>
    obtain rfl := Option.some.inj found
    cases external

theorem externals_apart (member : t ∈ (Compilation.build root files).types)
    (member' : t' ∈ (Compilation.build root files).types) (external : t.kind = .external)
    (external' : t'.kind = .external) (same : declaredKeyOf t = declaredKeyOf t')
    (imports : ∀ i, i ∈ t.imports ↔ i ∈ t'.imports) : t = t' := by
  obtain ⟨key, present, found⟩ := mem_types_build.1 member
  obtain ⟨key', present', found'⟩ := mem_types_build.1 member'
  obtain rfl := key_of_external found external
  obtain rfl := key_of_external found' external'
  obtain ⟨qualifier, name, arity⟩ := DeclaredKey.mk.inj same
  have equal : t.imports = t'.imports :=
    Text.eq_of_pairwise_lt (pairwise_imports present) (pairwise_imports present') imports
  rw [qualifier, name, arity, equal, found'] at found
  exact (Option.some.inj found).symm

/-- External types of one name are the same if their imports come to the same when put together, as
long as the imports of files have no separator in them. -/
theorem externals_apart_joined (separable : ∀ file ∈ files, file.ImportsSeparable)
    (member : t ∈ (Compilation.build root files).types)
    (member' : t' ∈ (Compilation.build root files).types) (external : t.kind = .external)
    (external' : t'.kind = .external) (same : declaredKeyOf t = declaredKeyOf t')
    (joined : t.joinedImports = t'.joinedImports) : t = t' := by
  have parted {t : TypeSymbol} (member : t ∈ (Compilation.build root files).types)
      (external : t.kind = .external) : ∀ s ∈ t.imports.map String.toList, s ≠ [] ∧ ';' ∉ s := by
    obtain ⟨key, present, found⟩ := mem_types_build.1 member
    obtain rfl := key_of_external found external
    rw [List.forall_mem_map]
    intro i among
    obtain ⟨file, listed, imported⟩ := exists_file_of_mem_imports present among
    obtain ⟨filled, single⟩ := separable file listed i imported
    exact ⟨fun none => filled (String.toList_eq_nil_iff.1 none), single⟩
  have equal := Text.joinWith_inj (parted member external) (parted member' external') joined
  have imports : t.imports = t'.imports :=
    List.map_injective_iff.2 (fun _ _ => String.toList_inj.1) equal
  exact externals_apart member member' external external' same fun i => imports ▸ .rfl

theorem key_of_parameter (found : symbolOf root files key = some t)
    (parameter : t.kind = .typeParameter) : ∃ owner, key = .parameter owner t.name ∧
      t.container = some (idOf (keysOf root files) (.declared owner)) := by
  cases key with
  | declared key =>
    obtain ⟨g, -, rfl⟩ := Option.map_eq_some_iff.1 found
    have declared := isDeclared_kind g
    rw [show g.kind = .typeParameter from parameter] at declared
    cases declared
  | external =>
    obtain rfl := Option.some.inj found
    cases parameter
  | parameter owner name =>
    obtain rfl := Option.some.inj found
    exact ⟨owner, rfl, rfl⟩

theorem parameters_apart (member : t ∈ (Compilation.build root files).types)
    (member' : t' ∈ (Compilation.build root files).types) (parameter : t.kind = .typeParameter)
    (parameter' : t'.kind = .typeParameter) (owner : t.container = t'.container)
    (name : t.name = t'.name) : t = t' := by
  obtain ⟨key, present, found⟩ := mem_types_build.1 member
  obtain ⟨key', present', found'⟩ := mem_types_build.1 member'
  obtain ⟨first, rfl, inside⟩ := key_of_parameter found parameter
  obtain ⟨second, rfl, inside'⟩ := key_of_parameter found' parameter'
  have known : .declared first ∈ keysOf root files := by
    obtain ⟨g, among, rfl⟩ := List.mem_map.1 (knows_of_mem_keysOf present)
    exact declared_mem_keysOf among
  rw [inside, inside'] at owner
  obtain rfl := SymbolKey.declared.inj ((List.idxOf_inj known).1 (Option.some.inj owner))
  rw [name, found'] at found
  exact (Option.some.inj found).symm

end

end Binding

/-- Whatever the root and the files are, what is built of them is well-formed. -/
theorem Compilation.wellFormed_build (root : String) (files : List SourceFile) :
    (build root files).WellFormed where
  numbered _ _ := id_of_get?
  declaredFirst _ member _ member' := Binding.declared_first member member'
  bound _ := Binding.bound_of_mem_types
  based _ := Binding.isSome_base_iff
  contained _ member _ := Binding.contained_before member
  declaredApart _ member _ member' := Binding.declared_apart member member'
  externalsApart _ member _ member' := Binding.externals_apart member member'
  parametersApart _ member _ member' := Binding.parameters_apart member member'

/-- A class with a type parameter, a base that is declared nowhere and a class within. -/
def stackFile : SourceFile where
  path := ⟨"a.cs"⟩
  imports := []
  aliases := []
  types := [⟨"Stack", .plainClass, none, ["T"], [⟨some "Lib", "Bag", [⟨none, "T", []⟩]⟩], [],
    [⟨"Node", .plainClass, none, [], [], [], [], ⟨2, 9⟩, false⟩], ⟨1, 7⟩, false⟩]

theorem Compilation.wellFormed_build_stack :
    (build "System.Object" [stackFile]).types.map (fun t => (t.name, t.kind, t.container))
      = [("Stack", .plainClass, none), ("Node", .plainClass, some 0),
        ("T", .typeParameter, some 0), ("Bag", .external, none), ("Object", .external, none)] ∧
      (build "System.Object" [stackFile]).WellFormed :=
  ⟨by decide +kernel, wellFormed_build "System.Object" [stackFile]⟩

end ConventionLint
