import ConventionLint.Proofs.Taxonomy.NearestMarker
import ConventionLint.Taxonomy.Index

/-!
# What the index answers

The index classifies every declared type once and files business rules and use cases under the
first external type that counts as one with their command. Its answers are those of a look at all
declared types, in which two commands are the same when they are one type, or external types written
with the same qualifier, name and number of arguments.
-/
namespace ConventionLint

namespace Compilation

variable {c : Compilation} {a b t : TypeSymbol}

theorem get?_iff_mem : c.get? t.id = some t ↔ t ∈ c.types := by
  constructor
  · exact fun h => List.mem_of_getElem? h
  · intro h
    obtain ⟨i, bound, rfl⟩ := List.getElem_of_mem h
    rw [c.numbered i bound]
    exact List.getElem?_eq_getElem bound

theorem eq_of_id_eq (ha : a ∈ c.types) (hb : b ∈ c.types) (h : a.id = b.id) : a = b := by
  rw [← get?_iff_mem] at ha hb
  rw [h, hb] at ha
  exact (Option.some.inj ha).symm

theorem mem_declaredTypes : t ∈ c.declaredTypes ↔ t ∈ c.types ∧ t.kind.isDeclared = true := by
  simp [declaredTypes]

theorem get?_of_mem_declaredTypes (h : t ∈ c.declaredTypes) : c.get? t.id = some t :=
  get?_iff_mem.2 (mem_declaredTypes.1 h).1

/-- Two references to a command mean the same command. -/
def SameCommand (a b : TypeSymbol) : Prop :=
  a.id = b.id ∨ sameExternal a b = true

theorem sameExternal_iff : sameExternal a b = true ↔
    a.kind = .external ∧ b.kind = .external ∧ a.qualifier = b.qualifier ∧ a.name = b.name ∧
      a.typeParameters.length = b.typeParameters.length := by
  simp [sameExternal, and_assoc]

theorem sameExternal_congr (h : sameExternal a b = true) : sameExternal a = sameExternal b := by
  obtain ⟨ha, hb, qualifier, name, arity⟩ := sameExternal_iff.1 h
  funext t
  simp [sameExternal, ha, hb, qualifier, name, arity]

theorem canonical_of_not_external (ha : a ∈ c.types) (inner : a.kind ≠ .external) :
    c.canonical a.id = a.id := by
  have alone : c.types.find? (sameExternal a) = none := by
    simp [List.find?_eq_none, sameExternal, inner]
  simp [canonical, get?_iff_mem.2 ha, alone]

/-- An external type is filed under the first one written like it. -/
theorem canonical_of_external (ha : a ∈ c.types) (outer : a.kind = .external) :
    ∃ first ∈ c.types, sameExternal a first = true ∧ c.canonical a.id = first.id ∧
      c.types.find? (sameExternal a) = some first := by
  have itself : sameExternal a a = true := by simp [sameExternal, outer]
  cases found : c.types.find? (sameExternal a) with
  | none => exact absurd itself (by simpa using List.find?_eq_none.1 found a ha)
  | some first =>
    exact ⟨first, List.mem_of_find?_eq_some found, List.find?_some found,
      by simp [canonical, get?_iff_mem.2 ha, found], rfl⟩

theorem canonical_eq_iff (ha : a ∈ c.types) (hb : b ∈ c.types) :
    c.canonical a.id = c.canonical b.id ↔ SameCommand a b := by
  constructor
  · intro h
    by_cases outer_a : a.kind = .external
    · obtain ⟨first, hf, same_a, ea, -⟩ := canonical_of_external ha outer_a
      by_cases outer_b : b.kind = .external
      · obtain ⟨other, ho, same_b, eb, -⟩ := canonical_of_external hb outer_b
        rw [ea, eb] at h
        obtain rfl := eq_of_id_eq hf ho h
        exact .inr (by
          rw [sameExternal_iff] at same_a same_b ⊢
          simp_all)
      · rw [ea, canonical_of_not_external hb outer_b] at h
        obtain rfl := eq_of_id_eq hf hb h
        exact absurd (sameExternal_iff.1 same_a).2.1 outer_b
    · by_cases outer_b : b.kind = .external
      · obtain ⟨other, ho, same_b, eb, -⟩ := canonical_of_external hb outer_b
        rw [eb, canonical_of_not_external ha outer_a] at h
        obtain rfl := eq_of_id_eq ha ho h
        exact absurd (sameExternal_iff.1 same_b).2.1 outer_a
      · rw [canonical_of_not_external ha outer_a, canonical_of_not_external hb outer_b] at h
        exact .inl h
  · rintro (same | same)
    · rw [same]
    · obtain ⟨outer_a, outer_b, -⟩ := sameExternal_iff.1 same
      obtain ⟨first, -, -, ea, found_a⟩ := canonical_of_external ha outer_a
      obtain ⟨other, -, -, eb, found_b⟩ := canonical_of_external hb outer_b
      rw [sameExternal_congr same, found_b] at found_a
      rw [ea, eb, Option.some.inj found_a]

end Compilation

namespace Resolver

/-- A use case derived directly from the marker, with the concrete command it is given. -/
def Handles (r : Resolver) (useCase command : TypeSymbol) : Prop :=
  useCase ∈ r.compilation.declaredTypes ∧ r.NearestMarker useCase.id .useCase true ∧
    r.firstArgument useCase.id = some command ∧ command.kind ≠ .typeParameter

/-- A business rule with the first type argument of its own base. -/
def Targets (r : Resolver) (rule target : TypeSymbol) : Prop :=
  rule ∈ r.compilation.declaredTypes ∧ (∃ direct, r.NearestMarker rule.id .businessRule direct) ∧
    r.firstArgument rule.id = some target

variable {r : Resolver} {t command : TypeSymbol}

theorem isDeclared_of_mem (h : t ∈ r.compilation.declaredTypes) : r.IsDeclared t.id :=
  ⟨t, Compilation.get?_of_mem_declaredTypes h, (Compilation.mem_declaredTypes.1 h).2⟩

theorem mem_types_of_firstArgument {id : TypeId} (h : r.firstArgument id = some t) :
    t ∈ r.compilation.types := by
  obtain ⟨reference, -, found⟩ := Option.bind_eq_some_iff.1 h
  obtain ⟨argument, -, followed⟩ := Option.bind_eq_some_iff.1 found
  exact Compilation.get?_iff_mem.1 (get?_of_follow followed)

theorem classify_useCase_iff_handles (h : t ∈ r.compilation.declaredTypes) {id : TypeId} :
    r.classify t.id = .useCase (some id) true ↔
      ∃ command, r.Handles t command ∧ command.id = id := by
  rw [classify_eq_useCase_iff, commandArgument]
  cases argument : r.firstArgument t.id with
  | none => simp [Handles, argument]
  | some command =>
    by_cases open' : command.kind = .typeParameter
    · simp [Handles, argument, open']
    · simp [Handles, argument, open', isDeclared_of_mem h, h]

theorem classify_businessRule_iff_targets (h : t ∈ r.compilation.declaredTypes) {id : TypeId} :
    r.classify t.id = .businessRule (some id) ↔ ∃ target, r.Targets t target ∧ target.id = id := by
  rw [classify_eq_businessRule_iff]
  cases argument : r.firstArgument t.id with
  | none => simp [Targets, argument]
  | some target => simp [Targets, argument, isDeclared_of_mem h, h]

end Resolver

namespace Context

variable {c : Compilation} {markers : MarkerSet}

@[simp] theorem compilation_of : (Context.of c markers).compilation = c := rfl

theorem lookup_taxonomies {types : List TypeSymbol} {classify : TypeId → Taxonomy} {id : TypeId} :
    (types.map fun t => (t.id, classify t.id)).lookup id =
      if id ∈ types.map (·.id) then some (classify id) else none := by
  induction types with
  | nil => rfl
  | cons t types ih =>
    rw [List.map_cons, List.lookup_cons, ih]
    by_cases same : id = t.id
    · simp [same]
    · simp [same, beq_eq_false_iff_ne.2 same]

/-- Looking a classification up and working it out come to the same. -/
theorem taxonomy_of (id : TypeId) :
    (Context.of c markers).taxonomy id = Resolver.classify ⟨c, markers⟩ id := by
  have looked : (Context.of c markers).taxonomy? id =
      if id ∈ c.declaredTypes.map (·.id) then some (Resolver.classify ⟨c, markers⟩ id) else none :=
    lookup_taxonomies
  rw [taxonomy, looked]
  split <;> rfl

theorem mem_rules_iff {key id : TypeId} :
    (key, id) ∈ (Context.of c markers).index.rules ↔
      ∃ t ∈ c.declaredTypes, ∃ target,
        Resolver.classify ⟨c, markers⟩ t.id = .businessRule (some target) ∧
          c.canonical target = key ∧ t.id = id := by
  change (key, id) ∈ List.filterMap _ (List.map _ _) ↔ _
  rw [List.filterMap_map, List.mem_filterMap]
  refine exists_congr fun t => and_congr_right fun _ => ?_
  simp only [Function.comp_apply]
  split
  · next shape =>
    obtain ⟨rfl, classified⟩ := Prod.mk.inj shape
    simp [classified]
  · next other =>
    simp only [reduceCtorEq, false_iff, not_exists, not_and]
    intro target classified
    exact absurd (by rw [classified]) (other t.id target)

theorem mem_useCases_iff {key id : TypeId} :
    (key, id) ∈ (Context.of c markers).index.useCases ↔
      ∃ t ∈ c.declaredTypes, ∃ command direct,
        Resolver.classify ⟨c, markers⟩ t.id = .useCase (some command) direct ∧
          c.canonical command = key ∧ t.id = id := by
  change (key, id) ∈ List.filterMap _ (List.map _ _) ↔ _
  rw [List.filterMap_map, List.mem_filterMap]
  refine exists_congr fun t => and_congr_right fun _ => ?_
  simp only [Function.comp_apply]
  split
  · next shape =>
    obtain ⟨rfl, classified⟩ := Prod.mk.inj shape
    simp [classified]
  · next other =>
    simp only [reduceCtorEq, false_iff, not_exists, not_and]
    intro command direct classified
    exact absurd (by rw [classified]) (other t.id command direct)

theorem behind_nonempty_iff (context : Context) {pairs : List (TypeId × TypeId)}
    {command : TypeId} :
    (!(context.behind pairs command).isEmpty) = true ↔
      ∃ id, (context.compilation.canonical command, id) ∈ pairs := by
  rw [Bool.not_eq_true', ← Bool.not_eq_true, List.isEmpty_iff, behind]
  simp only [List.map_eq_nil_iff, List.filter_eq_nil_iff, decide_eq_true_eq, not_forall,
    Decidable.not_not]
  constructor
  · rintro ⟨⟨key, id⟩, member, rfl⟩
    exact ⟨id, member⟩
  · rintro ⟨id, member⟩
    exact ⟨_, member, rfl⟩

/-- A use case that handles no recovered command is filed nowhere, and only a direct one recovers
it. -/
theorem direct_of_classify_useCase {r : Resolver} {id command : TypeId} {direct : Bool}
    (h : r.classify id = .useCase (some command) direct) : direct = true := by
  obtain ⟨-, kind, nearest, -, made⟩ := (Resolver.classify_eq_iff (by simp) (by simp)).1 h
  cases kind <;> cases nearest <;> cases direct <;> simp [Resolver.classifyBy] at made ⊢

theorem hasRuleFor_iff {command : TypeSymbol} (present : command ∈ c.types) :
    (Context.of c markers).hasRuleFor command.id = true ↔
      ∃ rule target, Resolver.Targets ⟨c, markers⟩ rule target ∧
        Compilation.SameCommand target command := by
  rw [hasRuleFor, rulesFor, behind_nonempty_iff, compilation_of]
  simp only [mem_rules_iff]
  constructor
  · rintro ⟨id, rule, declared, target, classified, filed, -⟩
    obtain ⟨target, targets, rfl⟩ :=
      (Resolver.classify_businessRule_iff_targets declared).1 classified
    have known := Resolver.mem_types_of_firstArgument targets.2.2
    exact ⟨rule, target, targets, (Compilation.canonical_eq_iff known present).1 filed⟩
  · rintro ⟨rule, target, targets, same⟩
    have known := Resolver.mem_types_of_firstArgument targets.2.2
    exact ⟨rule.id, rule, targets.1, target.id,
      (Resolver.classify_businessRule_iff_targets targets.1).2 ⟨target, targets, rfl⟩,
      (Compilation.canonical_eq_iff known present).2 same, rfl⟩

theorem isUseCaseCommand_iff {command : TypeSymbol} (present : command ∈ c.types) :
    (Context.of c markers).isUseCaseCommand command.id = true ↔
      ∃ useCase handled, Resolver.Handles ⟨c, markers⟩ useCase handled ∧
        Compilation.SameCommand handled command := by
  rw [isUseCaseCommand, useCasesFor, behind_nonempty_iff, compilation_of]
  simp only [mem_useCases_iff]
  constructor
  · rintro ⟨id, useCase, declared, handled, direct, classified, filed, -⟩
    obtain rfl := direct_of_classify_useCase classified
    obtain ⟨handled, handles, rfl⟩ :=
      (Resolver.classify_useCase_iff_handles declared).1 classified
    have known := Resolver.mem_types_of_firstArgument handles.2.2.1
    exact ⟨useCase, handled, handles, (Compilation.canonical_eq_iff known present).1 filed⟩
  · rintro ⟨useCase, handled, handles, same⟩
    have known := Resolver.mem_types_of_firstArgument handles.2.2.1
    exact ⟨useCase.id, useCase, handles.1, handled.id, true,
      (Resolver.classify_useCase_iff_handles handles.1).2 ⟨handled, handles, rfl⟩,
      (Compilation.canonical_eq_iff known present).2 same, rfl⟩

end Context

end ConventionLint
