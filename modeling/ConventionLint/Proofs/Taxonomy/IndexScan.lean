import ConventionLint.Proofs.Taxonomy.IndexQuery

/-!
# The index as a scan

Types are filed under one representative of their command, and a command is looked up under its own.
A scan of all declared types that compares commands two by two finds the same types in the same
order, whatever mixture of declared types, external types and type parameters the commands are.
-/
namespace ConventionLint

namespace Compilation

variable {c : Compilation} {a b : TypeId} {s : TypeSymbol}

/-- Two numbers mean one command: they are the same, or both belong to external types, written with
the same qualifier, name and number of arguments. -/
def SameTarget (c : Compilation) (a b : TypeId) : Prop :=
  a = b ∨ ∃ s t, c.get? a = some s ∧ c.get? b = some t ∧ s.kind = .external ∧ t.kind = .external ∧
    s.qualifier = t.qualifier ∧ s.name = t.name ∧
    s.typeParameters.length = t.typeParameters.length

theorem canonical_of_absent (absent : c.get? a = none) : c.canonical a = a := by
  rw [canonical, absent, Option.bind_none]

theorem exists_canonical (present : c.get? a = some s) : ∃ t, c.get? (c.canonical a) = some t := by
  have known := List.mem_of_getElem? present
  obtain rfl := id_of_get? present
  by_cases outer : s.kind = .external
  · obtain ⟨first, among, -, filed, -⟩ := canonical_of_external known outer
    exact ⟨first, filed ▸ get?_iff_mem.2 among⟩
  · exact ⟨s, by rw [canonical_of_not_external known outer, present]⟩

/-- A number without a type is filed under itself, and nothing else is. -/
theorem canonical_eq_iff_of_absent (absent : c.get? a = none) : c.canonical b = a ↔ b = a := by
  constructor
  · intro filed
    cases found : c.get? b with
    | none => rwa [canonical_of_absent found] at filed
    | some s =>
      obtain ⟨t, present⟩ := exists_canonical found
      rw [filed, absent] at present
      cases present
  · rintro rfl
    exact canonical_of_absent absent

theorem canonical_eq_iff_sameTarget : c.canonical a = c.canonical b ↔ c.SameTarget a b := by
  cases foundA : c.get? a with
  | none =>
    rw [canonical_of_absent foundA, eq_comm, canonical_eq_iff_of_absent foundA]
    simp [SameTarget, foundA, eq_comm]
  | some s =>
    cases foundB : c.get? b with
    | none =>
      rw [canonical_of_absent foundB, canonical_eq_iff_of_absent foundB]
      simp [SameTarget, foundB]
    | some t =>
      obtain rfl := id_of_get? foundA
      obtain rfl := id_of_get? foundB
      rw [canonical_eq_iff (List.mem_of_getElem? foundA) (List.mem_of_getElem? foundB),
        SameCommand, sameExternal_iff, SameTarget, foundA, foundB]
      simp

theorem sameTarget_equivalence (c : Compilation) : Equivalence c.SameTarget := by
  have filing : c.SameTarget = fun a b => c.canonical a = c.canonical b := by
    funext a b
    exact propext canonical_eq_iff_sameTarget.symm
  rw [filing]
  exact eq_equivalence.comap c.canonical

theorem pairwise_id_declaredTypes (c : Compilation) :
    c.declaredTypes.Pairwise fun s t => s.id < t.id := by
  refine List.Pairwise.filter _ (List.pairwise_iff_getElem.2 fun i j hi hj before => ?_)
  rw [c.numbered i hi, c.numbered j hj]
  exact before

end Compilation

namespace Taxonomy

variable {taxonomy : Taxonomy} {id : TypeId}

def ruledCommand : Taxonomy → Option TypeId
  | .businessRule target => target
  | _ => none

def handledCommand : Taxonomy → Option TypeId
  | .useCase handled _ => handled
  | _ => none

theorem ruledCommand_eq_some_iff :
    taxonomy.ruledCommand = some id ↔ taxonomy = .businessRule (some id) := by
  cases taxonomy <;> simp [ruledCommand]

theorem handledCommand_eq_some_iff :
    taxonomy.handledCommand = some id ↔ ∃ direct, taxonomy = .useCase (some id) direct := by
  cases taxonomy <;> simp [handledCommand]

end Taxonomy

namespace Context

variable {c : Compilation} {markers : MarkerSet} {filed : Taxonomy → Option TypeId}
  {command id : TypeId}

/-- The declared types in order, each that `filed` gives a command behind its representative. -/
def filing (c : Compilation) (classify : TypeId → Taxonomy) (filed : Taxonomy → Option TypeId) :
    List (TypeId × TypeId) :=
  c.declaredTypes.filterMap fun t =>
    (filed (classify t.id)).map fun command => (c.canonical command, t.id)

theorem rules_eq_filing : (Context.of c markers).index.rules
    = filing c (Resolver.classify ⟨c, markers⟩) Taxonomy.ruledCommand := by
  change List.filterMap _ (List.map _ _) = _
  rw [List.filterMap_map, filing]
  refine List.filterMap_congr fun t _ => ?_
  rw [Function.comp_apply]
  cases Resolver.classify ⟨c, markers⟩ t.id with
  | businessRule target => cases target <;> rfl
  | rootDerived | command | event | useCase | unclassified => rfl

theorem useCases_eq_filing : (Context.of c markers).index.useCases
    = filing c (Resolver.classify ⟨c, markers⟩) Taxonomy.handledCommand := by
  change List.filterMap _ (List.map _ _) = _
  rw [List.filterMap_map, filing]
  refine List.filterMap_congr fun t _ => ?_
  rw [Function.comp_apply]
  cases Resolver.classify ⟨c, markers⟩ t.id with
  | useCase command direct => cases command <;> rfl
  | rootDerived | command | event | businessRule | unclassified => rfl

/-- What is behind a command in order, each type once. -/
theorem pairwise_behind_filing (context : Context) (classify : TypeId → Taxonomy) :
    (context.behind (filing c classify filed) command).Pairwise (· < ·) := by
  rw [behind, List.pairwise_map]
  refine List.Pairwise.filter _ ?_
  rw [filing, List.pairwise_filterMap]
  refine c.pairwise_id_declaredTypes.imp fun {s t} before p first q second => ?_
  obtain ⟨-, -, rfl⟩ := Option.map_eq_some_iff.1 first
  obtain ⟨-, -, rfl⟩ := Option.map_eq_some_iff.1 second
  exact before

theorem mem_behind_filing {classify : TypeId → Taxonomy} :
    id ∈ (Context.of c markers).behind (filing c classify filed) command ↔
      ∃ t ∈ c.declaredTypes, t.id = id ∧
        ∃ target, filed (classify id) = some target ∧ c.SameTarget target command := by
  simp only [behind, compilation_of, filing, List.mem_map, List.mem_filter, List.mem_filterMap,
    Option.map_eq_some_iff]
  constructor
  · rintro ⟨_, ⟨⟨t, declared, target, found, rfl⟩, same⟩, rfl⟩
    exact ⟨t, declared, rfl, target, found,
      Compilation.canonical_eq_iff_sameTarget.1 (of_decide_eq_true same)⟩
  · rintro ⟨t, declared, rfl, target, found, same⟩
    exact ⟨_, ⟨⟨t, declared, target, found, rfl⟩,
      decide_eq_true (Compilation.canonical_eq_iff_sameTarget.2 same)⟩, rfl⟩

end Context

/-- The index lists, in the order of their numbers, exactly the declared types that are classified
as business rules or use cases of the command, two commands being one when they are equal or
external types written alike, which is an equivalence. Its classifications are those of the types.
-/
theorem Context.index_agrees (c : Compilation) (markers : MarkerSet) :
    Equivalence c.SameTarget ∧
    (∀ command, ((Context.of c markers).rulesFor command).Pairwise (· < ·) ∧
      ∀ rule, rule ∈ (Context.of c markers).rulesFor command ↔
        ∃ t ∈ c.declaredTypes, t.id = rule ∧
          ∃ target, Resolver.classify ⟨c, markers⟩ rule = .businessRule (some target) ∧
            c.SameTarget target command) ∧
    (∀ command, ((Context.of c markers).useCasesFor command).Pairwise (· < ·) ∧
      ∀ useCase, useCase ∈ (Context.of c markers).useCasesFor command ↔
        ∃ t ∈ c.declaredTypes, t.id = useCase ∧
          ∃ handled, (∃ direct,
            Resolver.classify ⟨c, markers⟩ useCase = .useCase (some handled) direct) ∧
            c.SameTarget handled command) ∧
    ∀ id, (Context.of c markers).taxonomy id = Resolver.classify ⟨c, markers⟩ id := by
  refine ⟨c.sameTarget_equivalence, fun command => ?_, fun command => ?_, taxonomy_of⟩
  · rw [rulesFor, rules_eq_filing]
    simp only [← Taxonomy.ruledCommand_eq_some_iff]
    exact ⟨pairwise_behind_filing _ _, fun _ => mem_behind_filing⟩
  · rw [useCasesFor, useCases_eq_filing]
    simp only [← Taxonomy.handledCommand_eq_some_iff]
    exact ⟨pairwise_behind_filing _ _, fun _ => mem_behind_filing⟩

end ConventionLint
