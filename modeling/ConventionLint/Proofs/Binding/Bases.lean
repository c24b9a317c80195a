import ConventionLint.Proofs.Binding.Outline

/-!
# Bases of types in several parts

One part decides on the base of a class or record: the first that has a base list, and of that list
the first entry, unless it is an interface. A class that is named elsewhere is not looked at.
-/
namespace ConventionLint.Binding

section

variable (root : String) (files : List SourceFile)

/-- Classes and records have a base. -/
def Group.IsClasslike (g : Group) : Prop :=
  g.kind = .plainClass ∨ g.kind = .record

def scopeOfPart (g : Group) (part : Site) : Scope where
  qualifier := g.key.qualifier
  imports := part.file.imports
  aliases := part.file.aliases
  parameters := ((scopesOf files).lookup g.key).getD []

/-- The base list of one part, bound where it stands. -/
def entriesOf (g : Group) (part : Site) : List Reference :=
  part.declaration.baseList.map (Reference.resolve (namesOf root files) (scopeOfPart files g part))

/-- The entry that decides on the base of a type, if any does. -/
def leading (g : Group) : Option Reference :=
  (entriesOf root files g g.basePart).head?.filter (!isInterface (groupsOf files) ·)

def NamesClass (g : Group) (r : Reference) : Prop :=
  ∃ part ∈ g.parts, r ∈ entriesOf root files g part ∧ isInterface (groupsOf files) r = false

def baseKey (g : Group) : SymbolKey :=
  ((leading root files g).map (·.target)).getD (namesOf root files).root

end

variable {root : String} {files files' : List SourceFile} {g : Group} {key : SymbolKey}
  {t : TypeSymbol} {markers : MarkerSet}

theorem arity_of_mem_groupsOf (member : g ∈ groupsOf files) :
    g.key.arity = g.first.declaration.typeParameters.length := by
  obtain ⟨present, same⟩ := first_of_mem_groups member
  exact same ▸ congrArg DeclaredKey.arity (of_mem_sites present).1

def declaredKeyOf (t : TypeSymbol) : DeclaredKey :=
  ⟨t.qualifier, t.name, t.typeParameters.length⟩

/-- Whether a type is the one that a key stands for. -/
def Denotes (c : Compilation) (t : TypeSymbol) : SymbolKey → Prop
  | .declared key => t ∈ c.declaredTypes ∧ declaredKeyOf t = key
  | .external qualifier name arity imports =>
    t.kind = .external ∧ declaredKeyOf t = ⟨qualifier, name, arity⟩ ∧ t.imports = imports
  | .parameter owner name =>
    t.kind = .typeParameter ∧ t.name = name ∧
      ∃ o ∈ c.declaredTypes, declaredKeyOf o = owner ∧ t.container = some o.id

theorem declaredKeyOf_declaredSymbol (member : g ∈ groupsOf files) :
    declaredKeyOf (declaredSymbol (keysOf root files) g (edgesIn root files g)) = g.key := by
  rw [declaredKeyOf, declaredSymbol, ← arity_of_mem_groupsOf member]

theorem mem_declaredTypes_build (member : g ∈ groupsOf files) :
    declaredSymbol (keysOf root files) g (edgesIn root files g)
      ∈ (Compilation.build root files).declaredTypes := by
  rw [declaredTypes_build]
  exact List.mem_map.2 ⟨g, member, rfl⟩

theorem denotes_symbolOf (member : key ∈ keysOf root files)
    (found : symbolOf root files key = some t) : Denotes (.build root files) t key := by
  have known := knows_of_mem_keysOf member
  cases key with
  | declared key =>
    obtain ⟨g, present, rfl⟩ := List.mem_map.1 known
    rw [symbolOf_declared present] at found
    obtain rfl := Option.some.inj found
    exact ⟨mem_declaredTypes_build present, declaredKeyOf_declaredSymbol present⟩
  | external qualifier name arity imports =>
    obtain rfl := Option.some.inj found
    exact ⟨rfl, by simp [declaredKeyOf], rfl⟩
  | parameter owner name =>
    obtain rfl := Option.some.inj found
    obtain ⟨g, present, rfl⟩ := List.mem_map.1 known
    exact ⟨rfl, rfl, _, mem_declaredTypes_build present, declaredKeyOf_declaredSymbol present, rfl⟩

theorem base_edgesIn (root : String) (classlike : g.IsClasslike) :
    (edgesIn root files g).base = some ((leading root files g).getD
      ⟨(namesOf root files).rootName, (namesOf root files).root, []⟩) := by
  have kinds : (decide (g.kind = .plainClass) || decide (g.kind = .record)) = true := by
    simpa [Group.IsClasslike] using classlike
  have entries : entriesOf root files g g.basePart = g.basePart.declaration.baseList.map
      (Reference.resolve (namesOf root files) (scopeOf (scopesOf files) g)) := rfl
  rw [edgesIn, edgesWith, leading, entries]
  unfold divide
  dsimp only
  rw [if_pos kinds]
  cases g.basePart.declaration.baseList with
  | nil => rfl
  | cons first rest =>
    rw [List.map_cons, List.head?_cons]
    dsimp only
    split
    · next other => simp [Option.filter, other]
    · next other => simp [Option.filter, other]

theorem base_edgesIn_of_not (other : ¬ g.IsClasslike) : (edgesIn root files g).base = none := by
  have kinds : (decide (g.kind = .plainClass) || decide (g.kind = .record)) = false := by
    simpa [Group.IsClasslike] using other
  rw [edgesIn, edgesWith]
  unfold divide
  dsimp only
  rw [if_neg (by simp [kinds])]

/-- A class or record is declared once and derives from what its deciding entry is bound to. -/
theorem exists_directBase (root : String) (markers : MarkerSet) (member : g ∈ groupsOf files)
    (classlike : g.IsClasslike) :
    ∃ t ∈ (Compilation.build root files).declaredTypes, declaredKeyOf t = g.key ∧
      ∃ base, Resolver.directBase ⟨.build root files, markers⟩ t.id = some base ∧
        Denotes (.build root files) base (baseKey root files g) := by
  refine ⟨_, mem_declaredTypes_build member, declaredKeyOf_declaredSymbol member, ?_⟩
  have based := (baseOf_declared member).trans (base_edgesIn root classlike)
  have target : ((leading root files g).getD
      ⟨(namesOf root files).rootName, (namesOf root files).root, []⟩).target
      = baseKey root files g := by
    rw [baseKey]
    cases leading root files g <;> rfl
  have known : baseKey root files g ∈ keysOf root files :=
    target ▸ needed_mem_keysOf based (.inl rfl)
  obtain ⟨base, found⟩ := exists_symbolOf known
  refine ⟨base, ?_, denotes_symbolOf known found⟩
  rw [directBase_build (declared_mem_keysOf member) (symbolOf_declared member), based,
    Option.bind_some, target, found]

/-- The deciding part has a base list if any part has. -/
theorem baseList_basePart {part : Site} (member : part ∈ g.parts)
    (listed : part.declaration.baseList ≠ []) : g.basePart.declaration.baseList ≠ [] := by
  rw [Group.basePart]
  cases found : g.parts.find? (!·.declaration.baseList.isEmpty) with
  | none => exact absurd (by simpa using listed) (List.find?_eq_none.1 found part member)
  | some first =>
    have shown := List.find?_some found
    simpa using shown

theorem namesClass_of_leading {r : Reference} (leads : leading root files g = some r) :
    NamesClass root files g r := by
  obtain ⟨head, shown⟩ := Option.filter_eq_some_iff.1 leads
  exact ⟨_, basePart_mem_parts g, List.mem_of_head? head, by simpa using shown⟩

theorem leading_eq_none_or {named : Reference}
    (only : ∀ r, NamesClass root files g r → r = named) :
    leading root files g = none ∨ leading root files g = some named := by
  cases leads : leading root files g with
  | none => exact .inl rfl
  | some r => exact .inr (only r (namesClass_of_leading leads) ▸ rfl)

/-- A class that stands first in every base list is the base, whatever part comes first. -/
theorem leading_of_heads {named : Reference} {part : Site} (member : part ∈ g.parts)
    (listed : part.declaration.baseList ≠ [])
    (heads : ∀ part ∈ g.parts, part.declaration.baseList ≠ [] →
      (entriesOf root files g part).head? = some named)
    (shown : isInterface (groupsOf files) named = false) :
    leading root files g = some named := by
  rw [leading, heads _ (basePart_mem_parts g) (baseList_basePart member listed)]
  simp [Option.filter, shown]

end ConventionLint.Binding
