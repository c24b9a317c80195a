import ConventionLint.Proofs.Binding.Graph
import ConventionLint.Proofs.Taxonomy.Correspondence

/-!
# Outlines

The outline of a declared type is what a built compilation tells of it without numbers. Compilations
whose types have the same outlines correspond, whatever else their files held and in whatever order
the types were met.
-/
namespace ConventionLint.Binding

structure Outline where
  key : DeclaredKey
  kind : TypeKind
  typeParameters : List String
  members : List MemberSymbol
  location : Location
  base : Option Reference

namespace Group

def location (g : Group) : Location :=
  ⟨g.first.file.path, g.first.declaration.position.line, g.first.declaration.position.column⟩

end Group

section

variable (root : String) (files files' : List SourceFile)

def outlineOf (g : Group) : Outline :=
  ⟨g.key, g.kind, g.first.declaration.typeParameters, g.members, g.location,
    (edgesIn root files g).base⟩

def outlines : List Outline :=
  (groupsOf files).map (outlineOf root files)

/-- The types that a key has in two compilations. -/
def SharedKey (a b : TypeSymbol) : Prop :=
  ∃ key, key ∈ keysOf root files ∧ key ∈ keysOf root files' ∧
    symbolOf root files key = some a ∧ symbolOf root files' key = some b

end

variable {root : String} {files files' : List SourceFile} {g g' : Group} {key : SymbolKey}
  {a b : TypeSymbol} {markers : MarkerSet}

/-- Every type of the first files has its outline among those of the second. -/
def Outlined (root : String) (files files' : List SourceFile) : Prop :=
  ∀ outline ∈ outlines root files, outline ∈ outlines root files'

theorem Outlined.exists_group (same : Outlined root files files') (member : g ∈ groupsOf files) :
    ∃ g' ∈ groupsOf files', outlineOf root files' g' = outlineOf root files g :=
  List.mem_map.1 (same _ (List.mem_map.2 ⟨g, member, rfl⟩))

theorem Outlined.baseOf_eq (same : Outlined root files files') (member : key ∈ keysOf root files) :
    baseOf root files' key = baseOf root files key := by
  cases key with
  | declared key =>
    obtain ⟨g, present, rfl⟩ := exists_group_of_mem_keysOf member
    obtain ⟨g', present', alike⟩ := same.exists_group present
    have keys : g'.key = g.key := congrArg Outline.key alike
    rw [← keys, baseOf_declared present', keys, baseOf_declared present]
    exact congrArg Outline.base alike
  | external | parameter => rfl

theorem Outlined.alike (same : Outlined root files files')
    (found : symbolOf root files key = some a) (found' : symbolOf root files' key = some b)
    (member : key ∈ keysOf root files) : a.Alike b := by
  cases key with
  | declared key =>
    obtain ⟨g, present, rfl⟩ := exists_group_of_mem_keysOf member
    obtain ⟨g', present', alike⟩ := same.exists_group present
    obtain ⟨keys, kinds, parameters, members, locations, -⟩ := Outline.mk.inj alike
    rw [symbolOf_declared present] at found
    rw [← keys, symbolOf_declared present'] at found'
    obtain rfl := Option.some.inj found
    obtain rfl := Option.some.inj found'
    exact ⟨congrArg DeclaredKey.name keys.symm, congrArg DeclaredKey.qualifier keys.symm,
      kinds.symm, parameters.symm, members.symm, congrArg some locations.symm, rfl⟩
  | external | parameter =>
    obtain rfl := Option.some.inj found
    obtain rfl := Option.some.inj found'
    exact ⟨rfl, rfl, rfl, rfl, rfl, rfl, rfl⟩

/-- Types with different keys have different numbers. -/
theorem key_eq_of_symbolOf {other : SymbolKey} (member : key ∈ keysOf root files)
    (found : symbolOf root files key = some a) (found' : symbolOf root files other = some a) :
    key = other := by
  have ids : idOf (keysOf root files) key = idOf (keysOf root files) other :=
    (id_of_symbolOf found).symm.trans (id_of_symbolOf found')
  exact (List.idxOf_inj member).1 ids

theorem exists_symbolOf (member : key ∈ keysOf root files) :
    ∃ t, symbolOf root files key = some t :=
  Option.isSome_iff_exists.1 (isSome_symbolOf member)

/-- What a base reference needs on one side is there on the other. -/
theorem Outlined.needed (same : Outlined root files files') {needed : SymbolKey} {r : Reference}
    (member : key ∈ keysOf root files) (based : baseOf root files key = some r)
    (need : r.Needs needed) (found : symbolOf root files needed = some a) :
    ∃ b, symbolOf root files' needed = some b ∧ SharedKey root files files' a b := by
  have known := needed_mem_keysOf based need
  have known' := needed_mem_keysOf ((same.baseOf_eq member).trans based) need
  obtain ⟨b, found'⟩ := exists_symbolOf known'
  exact ⟨b, found', needed, known, known', found, found'⟩

theorem simulates_build (same : Outlined root files files') :
    Resolver.Simulates ⟨.build root files, markers⟩ ⟨.build root files', markers⟩
      (SharedKey root files files') := by
  constructor
  case markers => rfl
  case alike =>
    rintro a b ⟨key, member, -, found, found'⟩
    exact same.alike found found' member
  case present =>
    rintro a b ⟨key, member, -, found, -⟩
    exact mem_types_build.2 ⟨key, member, found⟩
  case unique =>
    rintro a b x ⟨key, -, member, found, found'⟩ ⟨other, -, -, second, second'⟩
    obtain rfl := key_eq_of_symbolOf member found' second'
    exact Option.some.inj (found.symm.trans second)
  case base =>
    rintro a b x ⟨key, member, member', found, found'⟩ link
    rw [directBase_build member found] at link
    obtain ⟨r, based, target⟩ := Option.bind_eq_some_iff.1 link
    obtain ⟨y, target', related⟩ := same.needed member based (.inl rfl) target
    refine ⟨y, ?_, related⟩
    rw [directBase_build member' found', same.baseOf_eq member, based]
    exact target'
  case argument =>
    rintro a b x ⟨key, member, member', found, found'⟩ link
    rw [firstArgument_build member found] at link
    obtain ⟨r, based, target⟩ := Option.bind_eq_some_iff.1 link
    obtain ⟨first, head, target⟩ := Option.bind_eq_some_iff.1 target
    have need : r.Needs first.target := .inr ⟨first, List.mem_of_head? head, rfl⟩
    obtain ⟨y, target', related⟩ := same.needed member based need target
    refine ⟨y, ?_, related⟩
    rw [firstArgument_build member' found', same.baseOf_eq member, based, Option.bind_some, head]
    exact target'
  case declared =>
    intro a declared
    rw [declaredTypes_build] at declared
    obtain ⟨g, present, rfl⟩ := List.mem_map.1 declared
    obtain ⟨g', present', alike⟩ := same.exists_group present
    have keys : g'.key = g.key := congrArg Outline.key alike
    exact ⟨_, .declared g.key, declared_mem_keysOf present, keys ▸ declared_mem_keysOf present',
      symbolOf_declared present, keys ▸ symbolOf_declared present'⟩

theorem corresponds_build (same : ∀ outline, outline ∈ outlines root files ↔
    outline ∈ outlines root files') :
    Resolver.Corresponds ⟨.build root files, markers⟩ ⟨.build root files', markers⟩
      (SharedKey root files files') := by
  refine ⟨simulates_build fun outline => (same outline).1, ?_⟩
  have back : Resolver.Simulates ⟨.build root files', markers⟩ ⟨.build root files, markers⟩
      (SharedKey root files' files) := simulates_build fun outline => (same outline).2
  have swapped : SharedKey root files' files = fun b a => SharedKey root files files' a b := by
    funext b a
    rw [eq_iff_iff]
    constructor
    · rintro ⟨key, member', member, found', found⟩
      exact ⟨key, member, member', found, found'⟩
    · rintro ⟨key, member, member', found, found'⟩
      exact ⟨key, member', member, found', found⟩
  exact swapped ▸ back

end ConventionLint.Binding
