import ConventionLint.Binding.Build
import ConventionLint.Proofs.Binding.Groups
import ConventionLint.Proofs.Binding.Lookup
import ConventionLint.Proofs.Lists
import ConventionLint.Taxonomy.Classification

/-!
# The graph of a built compilation

Every type of a built compilation has a key, and its number is the place of the key. What a link
leads to is the type of the key that the reference was bound to, so that links can be followed by
keys and the numbers need not be known.
-/
namespace ConventionLint.Binding

def Names.Knows (n : Names) : SymbolKey → Prop
  | .declared key | .parameter key _ => key ∈ n.declared
  | .external .. => True

section

variable {n : Names} {scope : Scope} {place : Option String} {name : String} {arity : Nat}
  {key : SymbolKey}

theorem Names.knows_of_lookup (found : n.lookup place name arity = some key) : n.Knows key := by
  obtain ⟨known, rfl⟩ := Names.lookup_eq_some_iff.1 found
  exact known

theorem Names.knows_root : n.Knows n.root := by
  rcases n.root_cases with declared | external
  · exact Names.knows_of_lookup declared
  · exact external ▸ trivial

theorem Names.knows_bind (owned : ∀ p ∈ scope.parameters, p.1 ∈ n.declared)
    (t : WrittenType) : n.Knows (n.bind scope t) := by
  rcases n.bind_cases scope t with
    ⟨-, root | ⟨framework, external⟩ | ⟨p, inSight, parameter⟩⟩ | ⟨place, found⟩ | elsewhere
  · exact root ▸ Names.knows_root
  · exact external ▸ trivial
  · exact parameter ▸ owned p inSight
  · exact Names.knows_of_lookup found
  · exact elsewhere ▸ trivial

mutual

/-- The keys of a written type are what it and its arguments are bound to. -/
theorem Reference.exists_of_mem_keys : ∀ t : WrittenType,
    key ∈ (Reference.ofWritten n scope t).keys → ∃ u, key = n.bind scope u
  | ⟨qualifier, name, arguments⟩ => by
    intro member
    rw [ofWritten, keys, List.mem_append] at member
    rcases member with inner | own
    · exact Reference.exists_of_mem_keysOfAll arguments inner
    · exact ⟨_, List.mem_singleton.1 own⟩

theorem Reference.exists_of_mem_keysOfAll : ∀ ts : List WrittenType,
    key ∈ Reference.keysOfAll (Reference.ofAllWritten n scope ts) → ∃ u, key = n.bind scope u
  | [] => by simp [ofAllWritten, keysOfAll]
  | t :: ts => by
    intro member
    rw [ofAllWritten, keysOfAll, List.mem_append] at member
    rcases member with first | later
    · exact Reference.exists_of_mem_keys t first
    · exact Reference.exists_of_mem_keysOfAll ts later

end

end

theorem Reference.target_mem_keys (r : Reference) : r.target ∈ r.keys := by
  obtain ⟨name, target, arguments⟩ := r
  simp [keys]

theorem Reference.mem_keysOfAll {rs : List Reference} {key : SymbolKey} :
    key ∈ Reference.keysOfAll rs ↔ ∃ r ∈ rs, key ∈ r.keys := by
  induction rs with
  | nil => simp [keysOfAll]
  | cons r rs ih => simp [keysOfAll, ih]

theorem Reference.argument_mem_keys {r argument : Reference} (member : argument ∈ r.arguments) :
    argument.target ∈ r.keys := by
  obtain ⟨name, target, arguments⟩ := r
  rw [keys, List.mem_append, mem_keysOfAll]
  exact .inl ⟨argument, member, argument.target_mem_keys⟩

/-- A key that a link needs. -/
def Reference.Needs (r : Reference) (key : SymbolKey) : Prop :=
  key = r.target ∨ ∃ argument ∈ r.arguments, key = argument.target

theorem Reference.Needs.mem_keys {r : Reference} {key : SymbolKey} (h : r.Needs key) :
    key ∈ r.keys := by
  rcases h with rfl | ⟨argument, member, rfl⟩
  · exact r.target_mem_keys
  · exact argument_mem_keys member

def Edges.references (e : Edges) : List Reference :=
  e.base.toList ++ e.interfaces

section

variable {n : Names} {gs : List Group} {kind : TypeKind} {written : List Reference} {r : Reference}
  {key : SymbolKey}

/-- A base list has the root before it, or its first entry for the base, or no base at all. -/
theorem divide_cases (n : Names) (gs : List Group) (kind : TypeKind) (written : List Reference) :
    divide n gs kind written = ⟨some ⟨n.rootName, n.root, []⟩, written,
      Reference.keysOfAll written ++ [n.root]⟩ ∨
    (∃ first rest, written = first :: rest ∧
      divide n gs kind written = ⟨some first, rest, Reference.keysOfAll written⟩) ∨
    divide n gs kind written = ⟨none, written, Reference.keysOfAll written⟩ := by
  unfold divide
  dsimp only
  split
  · split
    · next first rest =>
      split
      · exact .inl rfl
      · exact .inr (.inl ⟨first, rest, rfl, rfl⟩)
    · exact .inl rfl
  · exact .inr (.inr rfl)

/-- What a type refers to was written, the root apart, and all its keys are recorded. -/
theorem of_mem_divide (member : r ∈ (divide n gs kind written).references) :
    (r ∈ written ∨ r = ⟨n.rootName, n.root, []⟩) ∧
      ∀ key ∈ r.keys, key ∈ (divide n gs kind written).keys := by
  have listed : r ∈ written → ∀ key ∈ r.keys, key ∈ Reference.keysOfAll written :=
    fun member key bound => Reference.mem_keysOfAll.2 ⟨r, member, bound⟩
  rcases divide_cases n gs kind written with rooted | ⟨first, rest, rfl, led⟩ | alone
  · rw [rooted] at member ⊢
    rcases List.mem_cons.1 member with rfl | inside
    · exact ⟨.inr rfl, fun key bound => List.mem_append_right _ bound⟩
    · exact ⟨.inl inside, fun key bound => List.mem_append_left _ (listed inside key bound)⟩
  · rw [led] at member ⊢
    exact ⟨.inl member, listed member⟩
  · rw [alone] at member ⊢
    exact ⟨.inl member, listed member⟩

theorem of_mem_keys_divide (member : key ∈ (divide n gs kind written).keys) :
    key ∈ Reference.keysOfAll written ∨ key = n.root := by
  rcases divide_cases n gs kind written with rooted | ⟨first, rest, -, led⟩ | alone
  · rw [rooted] at member
    exact (List.mem_append.1 member).imp_right List.mem_singleton.1
  · rw [led] at member
    exact .inl member
  · rw [alone] at member
    exact .inl member

end

theorem nodup_eraseDups (keys : List SymbolKey) : keys.eraseDups.Nodup := by
  match keys with
  | [] => simp
  | key :: keys =>
    have shorter := List.length_filter_le (fun other => !other == key) keys
    rw [List.eraseDups_cons, List.nodup_cons]
    exact ⟨by simp [List.mem_eraseDups], nodup_eraseDups _⟩
termination_by keys.length

section

variable (root : String) (files : List SourceFile)

def groupsOf : List Group :=
  groups (sites files)

def namesOf : Names :=
  ⟨(groupsOf files).map (·.key), (Text.splitName root).1, (Text.splitName root).2⟩

def scopesOf : List (DeclaredKey × List (DeclaredKey × String)) :=
  parameterScopes (groupsOf files)

def edgesIn (g : Group) : Edges :=
  edgesWith Reference.resolve (namesOf root files) (groupsOf files) (scopesOf files) g

def keysOf : List SymbolKey :=
  symbolKeys (groupsOf files) ((groupsOf files).map (edgesIn root files))

def symbolOf : SymbolKey → Option TypeSymbol
  | .declared key =>
    ((groupsOf files).find? (·.key = key)).map fun g =>
      declaredSymbol (keysOf root files) g (edgesIn root files g)
  | key => referredSymbol (keysOf root files) key

def baseOf : SymbolKey → Option Reference
  | .declared key =>
    ((groupsOf files).find? (·.key = key)).bind fun g => (edgesIn root files g).base
  | _ => none

variable {root files} {g : Group} {key : SymbolKey} {t : TypeSymbol}

theorem declared_mem_keysOf (member : g ∈ groupsOf files) :
    .declared g.key ∈ keysOf root files := by
  rw [keysOf, symbolKeys, List.mem_append]
  exact .inl (List.mem_map.2 ⟨g, member, rfl⟩)

theorem mem_keysOf_of_mem_edges (member : g ∈ groupsOf files)
    (bound : key ∈ (edgesIn root files g).keys) : key ∈ keysOf root files := by
  rw [keysOf, symbolKeys, List.mem_append]
  by_cases declared : key ∈ (groupsOf files).map (SymbolKey.declared ·.key)
  · exact .inl declared
  · refine .inr (List.mem_filter.2 ⟨?_, by simpa using declared⟩)
    rw [List.mem_eraseDups, List.mem_flatMap]
    exact ⟨edgesIn root files g, List.mem_map.2 ⟨g, member, rfl⟩, bound⟩

/-- The keys of declared types stand first. -/
theorem exists_referred (root : String) (files : List SourceFile) : ∃ referred,
    keysOf root files = (groupsOf files).map (SymbolKey.declared ·.key) ++ referred ∧
      ∀ key ∈ referred, key ∉ (groupsOf files).map (SymbolKey.declared ·.key) := by
  refine ⟨_, rfl, fun key member => ?_⟩
  simpa using (List.mem_filter.1 member).2

theorem keysOf_nodup : (keysOf root files).Nodup := by
  rw [keysOf, symbolKeys, List.nodup_append]
  refine ⟨?_, ?_, ?_⟩
  · have keys : ((groupsOf files).map (·.key)).Nodup := groups_nodup (sites files)
    have injective : Function.Injective SymbolKey.declared := fun a b => SymbolKey.declared.inj
    simpa [List.map_map, Function.comp_def] using keys.map injective
  · exact (nodup_eraseDups _).filter _
  · rintro a declared b referred rfl
    simp only [List.mem_filter, Bool.not_eq_true', List.contains_eq_mem, decide_eq_false_iff_not]
      at referred
    exact referred.2 declared

/-- Type parameters in sight belong to declared types. -/
theorem owner_of_mem_parameterScopes {gs : List Group} {key : DeclaredKey}
    {parameters : List (DeclaredKey × String)} {parameter : DeclaredKey × String}
    (entry : (key, parameters) ∈ parameterScopes gs) (inSight : parameter ∈ parameters) :
    parameter.1 ∈ gs.map (·.key) := by
  induction gs using List.reverseRecOn generalizing key parameters with
  | nil => cases entry
  | append_singleton gs g ih =>
    rw [parameterScopes, List.foldl_concat, List.mem_append] at entry
    rw [List.map_append, List.mem_append]
    rcases entry with before | last
    · exact .inl (ih before inSight)
    · obtain ⟨-, rfl⟩ := Prod.mk.inj (List.mem_singleton.1 last)
      rcases List.mem_append.1 inSight with own | outer
      · obtain ⟨name, -, rfl⟩ := List.mem_map.1 own
        exact .inr (by simp)
      · cases found : g.first.container.bind fun key => (parameterScopes gs).lookup key with
        | none =>
          rw [parameterScopes] at found
          rw [found] at outer
          cases outer
        | some parameters =>
          obtain ⟨container, -, scope⟩ := Option.bind_eq_some_iff.1 found
          rw [parameterScopes] at found
          rw [found] at outer
          exact .inl (ih (mem_of_lookup scope) outer)

theorem owner_of_mem_scopeOf (g : Group) :
    ∀ parameter ∈ (scopeOf (scopesOf files) g).parameters,
      parameter.1 ∈ (namesOf root files).declared := by
  intro parameter member
  rw [scopeOf] at member
  cases scope : (scopesOf files).lookup g.key with
  | none =>
    rw [scope] at member
    cases member
  | some parameters =>
    rw [scope] at member
    exact owner_of_mem_parameterScopes (mem_of_lookup scope) member

/-- The keys of a compilation are those of its declared types and what base lists are bound to. -/
theorem mem_keysOf_cases (member : key ∈ keysOf root files) :
    (∃ g ∈ groupsOf files, key = .declared g.key) ∨ key = (namesOf root files).root ∨
      ∃ g ∈ groupsOf files, ∃ t, key = (namesOf root files).bind (scopeOf (scopesOf files) g) t := by
  rw [keysOf, symbolKeys, List.mem_append, List.mem_filter, List.mem_eraseDups] at member
  rcases member with declared | ⟨referred, -⟩
  · obtain ⟨g, present, rfl⟩ := List.mem_map.1 declared
    exact .inl ⟨g, present, rfl⟩
  · obtain ⟨edges, inside, bound⟩ := List.mem_flatMap.1 referred
    obtain ⟨g, present, rfl⟩ := List.mem_map.1 inside
    rcases of_mem_keys_divide bound with written | root
    · obtain ⟨r, entry, bound⟩ := Reference.mem_keysOfAll.1 written
      obtain ⟨t, -, rfl⟩ := List.mem_map.1 entry
      exact .inr (.inr ⟨g, present, Reference.exists_of_mem_keys _ bound⟩)
    · exact .inr (.inl root)

/-- What a key of a compilation names is declared there, unless it is external. -/
theorem knows_of_mem_keysOf (member : key ∈ keysOf root files) :
    (namesOf root files).Knows key := by
  rcases mem_keysOf_cases member with ⟨g, present, rfl⟩ | rfl | ⟨g, -, t, rfl⟩
  · exact List.mem_map.2 ⟨g, present, rfl⟩
  · exact Names.knows_root
  · exact Names.knows_bind (owner_of_mem_scopeOf g) t

/-- A declared key of a compilation is the key of a group. -/
theorem exists_group_of_mem_keysOf {key : DeclaredKey}
    (member : .declared key ∈ keysOf root files) :
    ∃ g ∈ groupsOf files, g.key = key :=
  List.mem_map.1 (knows_of_mem_keysOf member)

theorem symbolOf_declared (member : g ∈ groupsOf files) :
    symbolOf root files (.declared g.key)
      = some (declaredSymbol (keysOf root files) g (edgesIn root files g)) := by
  rw [symbolOf, groupsOf, find?_groups member, Option.map_some]

theorem baseOf_declared (member : g ∈ groupsOf files) :
    baseOf root files (.declared g.key) = (edgesIn root files g).base := by
  rw [baseOf, groupsOf, find?_groups member, Option.bind_some]

theorem isSome_symbolOf (member : key ∈ keysOf root files) : (symbolOf root files key).isSome := by
  cases key with
  | declared key =>
    obtain ⟨g, present, rfl⟩ := exists_group_of_mem_keysOf member
    rw [symbolOf_declared present, Option.isSome_some]
  | external | parameter => rfl

theorem id_of_symbolOf (found : symbolOf root files key = some t) :
    t.id = idOf (keysOf root files) key := by
  cases key with
  | declared key =>
    rw [symbolOf] at found
    obtain ⟨g, named, rfl⟩ := Option.map_eq_some_iff.1 found
    have same : g.key = key := by simpa using List.find?_some named
    exact same ▸ rfl
  | external | parameter => exact Option.some.inj found ▸ rfl

theorem base_of_symbolOf (found : symbolOf root files key = some t) :
    t.base = (baseOf root files key).map (edgeOf (keysOf root files)) := by
  cases key with
  | declared key =>
    rw [symbolOf] at found
    obtain ⟨g, named, rfl⟩ := Option.map_eq_some_iff.1 found
    rw [baseOf, named]
    rfl
  | external | parameter => exact Option.some.inj found ▸ rfl

/-- Only types with a declared key are declared. -/
theorem declared_of_symbolOf (found : symbolOf root files key = some t)
    (declared : t.kind.isDeclared) : ∃ g ∈ groupsOf files, key = .declared g.key := by
  cases key with
  | declared key =>
    rw [symbolOf] at found
    obtain ⟨g, named, -⟩ := Option.map_eq_some_iff.1 found
    have same : g.key = key := by simpa using List.find?_some named
    exact ⟨g, List.mem_of_find?_eq_some named, same ▸ rfl⟩
  | external | parameter =>
    rw [← Option.some.inj found] at declared
    cases declared

theorem isDeclared_kind (g : Group) : g.kind.isDeclared := by
  rw [Group.kind]
  cases g.first.declaration.kind <;> rfl

theorem getElem?_filterMap_of_isSome {α β : Type} {f : α → Option β} {as : List α}
    (total : ∀ a ∈ as, (f a).isSome) (i : Nat) : (as.filterMap f)[i]? = as[i]?.bind f := by
  induction as generalizing i with
  | nil => simp
  | cons a as ih =>
    obtain ⟨b, image⟩ := Option.isSome_iff_exists.1 (total a (by simp))
    rw [List.filterMap_cons_some image]
    cases i with
    | zero => simp [image]
    | succ i => simpa using ih (fun a member => total a (List.mem_cons_of_mem _ member)) i

/-- The declared types stand first, in the order of their groups. -/
theorem filterMap_symbolOf : (keysOf root files).filterMap (symbolOf root files)
    = (groupsOf files).map (fun g => declaredSymbol (keysOf root files) g (edgesIn root files g))
      ++ (keysOf root files).filterMap (referredSymbol (keysOf root files)) := by
  obtain ⟨referred, split, others⟩ := exists_referred root files
  have first : ((groupsOf files).map (SymbolKey.declared ·.key)).filterMap (symbolOf root files)
      = (groupsOf files).map fun g =>
          declaredSymbol (keysOf root files) g (edgesIn root files g) := by
    rw [List.filterMap_map, ← List.filterMap_eq_map]
    exact List.filterMap_congr fun g member => symbolOf_declared member
  have none : ((groupsOf files).map (SymbolKey.declared ·.key)).filterMap
      (referredSymbol (keysOf root files)) = [] := by
    rw [List.filterMap_map]
    exact List.filterMap_eq_nil_iff.2 fun g _ => rfl
  have later : referred.filterMap (symbolOf root files)
      = referred.filterMap (referredSymbol (keysOf root files)) := by
    refine List.filterMap_congr fun key member => ?_
    cases key with
    | declared key =>
      have known : .declared key ∈ keysOf root files := split ▸ List.mem_append_right _ member
      obtain ⟨g, present, rfl⟩ := exists_group_of_mem_keysOf known
      exact absurd (List.mem_map.2 ⟨g, present, rfl⟩) (others _ member)
    | external | parameter => rfl
  generalize keysOf root files = keys at *
  subst split
  rw [List.filterMap_append, List.filterMap_append, first, none, later, List.nil_append]

theorem types_build :
    (Compilation.build root files).types = (keysOf root files).filterMap (symbolOf root files) := by
  have numbered (types : List TypeSymbol)
      (places : ∀ (i : Nat) (t : TypeSymbol), types[i]? = some t → t.id = i) :
      types.mapIdx (fun i t => { t with id := i }) = types := by
    refine List.ext_getElem? fun i => ?_
    rw [List.getElem?_mapIdx]
    cases found : types[i]? with
    | none => rfl
    | some t => rw [Option.map_some, ← places i t found]
  have zipped : List.zipWith (declaredSymbol (keysOf root files)) (groupsOf files)
      ((groupsOf files).map (edgesIn root files))
      = (groupsOf files).map fun g =>
          declaredSymbol (keysOf root files) g (edgesIn root files g) := by
    rw [List.zipWith_map_right, List.zipWith_self]
  refine Eq.trans ?_ (numbered _ fun i t found => ?_)
  · rw [filterMap_symbolOf, ← zipped]
    rfl
  · rw [getElem?_filterMap_of_isSome fun key => isSome_symbolOf] at found
    obtain ⟨key, place, image⟩ := Option.bind_eq_some_iff.1 found
    obtain ⟨bound, rfl⟩ := List.getElem?_eq_some_iff.1 place
    rw [id_of_symbolOf image, idOf, keysOf_nodup.idxOf_getElem]

theorem get?_build (member : key ∈ keysOf root files) :
    (Compilation.build root files).get? (idOf (keysOf root files) key)
      = symbolOf root files key := by
  rw [Compilation.get?, types_build, getElem?_filterMap_of_isSome fun key => isSome_symbolOf, idOf,
    List.getElem?_idxOf member, Option.bind_some]

/-- Declared types are numbered in the order of their groups. -/
theorem idOf_declared (member : g ∈ groupsOf files) : idOf (keysOf root files) (.declared g.key)
    = idOf ((groupsOf files).map (SymbolKey.declared ·.key)) (.declared g.key) := by
  rw [idOf, keysOf, symbolKeys]
  exact List.idxOf_append_of_mem (List.mem_map.2 ⟨g, member, rfl⟩)

theorem get?_id_of_symbolOf (member : key ∈ keysOf root files)
    (found : symbolOf root files key = some t) :
    (Compilation.build root files).get? t.id = some t := by
  rw [id_of_symbolOf found, get?_build member, found]

theorem mem_types_build : t ∈ (Compilation.build root files).types ↔
    ∃ key ∈ keysOf root files, symbolOf root files key = some t := by
  rw [types_build, List.mem_filterMap]

theorem declaredTypes_build : (Compilation.build root files).declaredTypes
    = (groupsOf files).map fun g =>
        declaredSymbol (keysOf root files) g (edgesIn root files g) := by
  rw [Compilation.declaredTypes, types_build, filterMap_symbolOf, List.filter_append,
    List.filter_eq_self.2, List.filter_eq_nil_iff.2, List.append_nil]
  · intro t member
    obtain ⟨key, -, found⟩ := List.mem_filterMap.1 member
    cases key with
    | declared => cases found
    | external | parameter => exact Option.some.inj found ▸ Bool.false_ne_true
  · intro t member
    obtain ⟨g, -, rfl⟩ := List.mem_map.1 member
    exact isDeclared_kind g

variable {markers : MarkerSet} {r argument : Reference}

theorem needed_mem_keysOf (based : baseOf root files key = some r) {needed : SymbolKey}
    (need : r.Needs needed) : needed ∈ keysOf root files := by
  cases key with
  | declared key =>
    rw [baseOf] at based
    obtain ⟨g, named, base⟩ := Option.bind_eq_some_iff.1 based
    have linked : r ∈ (edgesIn root files g).references := by
      rw [Edges.references, base]
      exact List.mem_cons_self ..
    exact mem_keysOf_of_mem_edges (List.mem_of_find?_eq_some named)
      ((of_mem_divide linked).2 needed need.mem_keys)
  | external | parameter => cases based

theorem baseOf_build (member : key ∈ keysOf root files)
    (found : symbolOf root files key = some t) :
    Resolver.baseOf ⟨.build root files, markers⟩ t.id
      = (baseOf root files key).map (edgeOf (keysOf root files)) := by
  rw [Resolver.baseOf, get?_id_of_symbolOf member found, Option.bind_some, base_of_symbolOf found]

theorem follow_edgeOf (member : r.target ∈ keysOf root files) :
    Resolver.follow ⟨.build root files, markers⟩ (edgeOf (keysOf root files) r)
      = symbolOf root files r.target := by
  obtain ⟨name, target, arguments⟩ := r
  rw [Resolver.follow, edgeOf]
  exact get?_build member

theorem directBase_build (member : key ∈ keysOf root files)
    (found : symbolOf root files key = some t) :
    Resolver.directBase ⟨.build root files, markers⟩ t.id
      = (baseOf root files key).bind (symbolOf root files ·.target) := by
  rw [Resolver.directBase, baseOf_build member found]
  cases based : baseOf root files key with
  | none => rfl
  | some r => exact follow_edgeOf (needed_mem_keysOf based (.inl rfl))

theorem firstArgument_build (member : key ∈ keysOf root files)
    (found : symbolOf root files key = some t) :
    Resolver.firstArgument ⟨.build root files, markers⟩ t.id
      = (baseOf root files key).bind fun r =>
          r.arguments.head?.bind (symbolOf root files ·.target) := by
  rw [Resolver.firstArgument, baseOf_build member found]
  cases based : baseOf root files key with
  | none => rfl
  | some r =>
    obtain ⟨name, target, arguments⟩ := r
    cases arguments with
    | nil => rfl
    | cons first rest =>
      exact follow_edgeOf (needed_mem_keysOf based (.inr ⟨first, List.mem_cons_self .., rfl⟩))

end

end ConventionLint.Binding
