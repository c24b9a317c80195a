import ConventionLint.Proofs.Analysis.Visit

/-!
# Violations

What the six conventions say about a type graph, told without the engine: which symbols break which
convention, by the nearest markers of their types and by the commands that use cases handle. A pass
reports exactly the violations, each once, and no rule of the standard ones ever fails.
-/
namespace ConventionLint

inductive Convention where
  | commandNaming
  | eventNaming
  | mutableProperty
  | messageField
  | missingBusinessRule
  | missingImplementation
deriving DecidableEq, Repr

namespace Convention

def all : List Convention :=
  [.commandNaming, .eventNaming, .mutableProperty, .messageField, .missingBusinessRule,
   .missingImplementation]

def rule : Convention → Rule
  | .commandNaming => .commandNaming
  | .eventNaming => .eventNaming
  | .mutableProperty => .mutableProperty
  | .messageField => .messageField
  | .missingBusinessRule => .missingBusinessRule
  | .missingImplementation => .missingImplementation

theorem rule_all : all.map rule = Rule.standard := rfl

theorem mem_all (k : Convention) : k ∈ all := by
  cases k <;> decide

def descriptorAt (k : Convention) (severity : Severity) : Descriptor :=
  { k.rule.descriptor with severity := severity }

end Convention

/-- The standard rules that are given a severity, in their order. -/
def RuleSet.select (severity : Convention → Option Severity) (reports : Bool) : RuleSet where
  rules := Convention.all.filterMap fun k => (severity k).map (⟨k.rule, ·⟩)
  reportsInternalErrors := reports

namespace Resolver

/-- Events, and commands of use cases. -/
def IsMessage (r : Resolver) (t : TypeSymbol) : Prop :=
  (∃ direct, r.NearestMarker t.id .event direct) ∨ ∃ useCase, r.Handles useCase t

/-- Whether a symbol breaks a convention, and what is to be said about it. -/
def Violates (r : Resolver) (s : SymbolRef) (f : Finding) : Convention → Prop
  | .commandNaming =>
    ∃ t ∈ r.compilation.declaredTypes, s = .type t.id ∧
      r.NearestMarker t.id .command true ∧ ¬ "Command".toList <:+ t.name.toList ∧
      f = .named t.name t.location [.appendSuffix "Command"]
  | .eventNaming =>
    ∃ t ∈ r.compilation.declaredTypes, s = .type t.id ∧
      (∃ direct, r.NearestMarker t.id .event direct) ∧ ¬ "Event".toList <:+ t.name.toList ∧
      f = .named t.name t.location [.appendSuffix "Event"]
  | .mutableProperty =>
    ∃ owner ∈ r.compilation.declaredTypes, ∃ index property,
      owner.members[index]? = some property ∧ s = .member owner.id index ∧ r.IsMessage owner ∧
      (∃ setter, property.kind = .property (some setter) ∧
        setter.accessibility = .publicAccess ∧ setter.initOnly = false) ∧
      f = .named property.name property.location [.removeSetter, .demoteSetter]
  | .messageField =>
    ∃ owner ∈ r.compilation.declaredTypes, ∃ index field,
      owner.members[index]? = some field ∧ s = .member owner.id index ∧
      (∃ direct, r.NearestMarker owner.id .event direct) ∧
      (field.kind = .field ∧ field.implicit = false ∧
        ¬ "__BackingField".toList <:+ field.name.toList) ∧
      f = ⟨field.name, owner.name, field.location, []⟩
  | .missingBusinessRule =>
    ∃ t ∈ r.compilation.declaredTypes, s = .type t.id ∧ ∃ command, r.Handles t command ∧
      (∀ rule target, r.Targets rule target → ¬ Compilation.SameCommand target command) ∧
      f = .named t.name t.location [.synthesizeBusinessRule command.name t.qualifier]
  | .missingImplementation =>
    ∃ t ∈ r.compilation.declaredTypes, s = .type t.id ∧ (∃ command, r.Handles t command) ∧
      (∀ m ∈ t.members, m.name ≠ "Execute" ∧ m.name ≠ "ExecuteAsync") ∧
      f = .named t.name t.location []

variable {c : Compilation} {markers : MarkerSet} {t owner : TypeSymbol} {f : Finding}

theorem exists_type_iff (declared : t ∈ c.declaredTypes) {P : TypeSymbol → Prop} :
    (∃ u ∈ c.declaredTypes, SymbolRef.type t.id = .type u.id ∧ P u) ↔ P t := by
  constructor
  · rintro ⟨u, present, same, holds⟩
    have := Compilation.eq_of_id_eq (Compilation.mem_declaredTypes.1 declared).1
      (Compilation.mem_declaredTypes.1 present).1 (SymbolRef.type.inj same)
    exact this ▸ holds
  · exact fun holds => ⟨t, declared, rfl, holds⟩

theorem exists_member_iff (declared : owner ∈ c.declaredTypes) {index : Nat} {m : MemberSymbol}
    (found : owner.members[index]? = some m) {P : TypeSymbol → MemberSymbol → Prop} :
    (∃ u ∈ c.declaredTypes, ∃ place n, u.members[place]? = some n ∧
      SymbolRef.member owner.id index = .member u.id place ∧ P u n) ↔ P owner m := by
  constructor
  · rintro ⟨u, present, place, n, shown, same, holds⟩
    obtain ⟨ids, rfl⟩ := SymbolRef.member.inj same
    obtain rfl := Compilation.eq_of_id_eq (Compilation.mem_declaredTypes.1 declared).1
      (Compilation.mem_declaredTypes.1 present).1 ids
    obtain rfl := Option.some.inj (found.symm.trans shown)
    exact holds
  · exact fun holds => ⟨owner, declared, index, m, found, rfl, holds⟩

theorem classify_command_iff (declared : t ∈ c.declaredTypes) {direct : Bool} :
    classify ⟨c, markers⟩ t.id = .command direct ↔
      NearestMarker ⟨c, markers⟩ t.id .command direct := by
  simp [classify_eq_command_iff, isDeclared_of_mem (r := ⟨c, markers⟩) declared]

theorem classify_event_iff (declared : t ∈ c.declaredTypes) :
    classify ⟨c, markers⟩ t.id = .event ↔
      ∃ direct, NearestMarker ⟨c, markers⟩ t.id .event direct := by
  simp [classify_eq_event_iff, isDeclared_of_mem (r := ⟨c, markers⟩) declared]

/-- A declared type is the same command as another only if it is that one. -/
theorem exists_handles_sameCommand_iff (declared : t ∈ c.declaredTypes) :
    (∃ useCase handled, Handles ⟨c, markers⟩ useCase handled ∧
      Compilation.SameCommand handled t) ↔ ∃ useCase, Handles ⟨c, markers⟩ useCase t := by
  obtain ⟨present, inner⟩ := Compilation.mem_declaredTypes.1 declared
  constructor
  · rintro ⟨useCase, handled, handles, same | same⟩
    · have known := mem_types_of_firstArgument handles.2.2.1
      exact ⟨useCase, Compilation.eq_of_id_eq known present same ▸ handles⟩
    · rw [(Compilation.sameExternal_iff.1 same).2.1] at inner
      cases inner
  · rintro ⟨useCase, handles⟩
    exact ⟨useCase, t, handles, .inl rfl⟩

theorem isMessage_iff (declared : t ∈ c.declaredTypes) :
    Rule.isMessage (Context.of c markers) t.id = true ↔ IsMessage ⟨c, markers⟩ t := by
  have present := (Compilation.mem_declaredTypes.1 declared).1
  rw [Rule.isMessage, IsMessage, Bool.or_eq_true, decide_eq_true_eq, Context.taxonomy_of,
    classify_event_iff declared, Context.isUseCaseCommand_iff present,
    exists_handles_sameCommand_iff declared]

theorem handledCommand_eq_some_iff (declared : t ∈ c.declaredTypes) {id : TypeId} :
    Rule.handledCommand (Context.of c markers) t = some id ↔
      ∃ command, Handles ⟨c, markers⟩ t command ∧ command.id = id := by
  rw [← classify_useCase_iff_handles declared, Rule.handledCommand, Context.taxonomy_of]
  split <;> simp_all

theorem hasPublicSetter_iff {m : MemberSymbol} : m.hasPublicSetter = true ↔
    ∃ setter, m.kind = .property (some setter) ∧ setter.accessibility = .publicAccess ∧
      setter.initOnly = false := by
  rw [MemberSymbol.hasPublicSetter]
  split
  · next setter shape => simp [shape, and_comm]
  · next other =>
    simp only [Bool.false_eq_true, false_iff, not_exists, not_and]
    exact fun setter shape => absurd shape (other setter)

theorem implementsUseCase_iff : Rule.implementsUseCase t = false ↔
    ∀ m ∈ t.members, m.name ≠ "Execute" ∧ m.name ≠ "ExecuteAsync" := by
  simp [Rule.implementsUseCase, TypeSymbol.declaresMember, forall_and]

/-- The findings are all there is to say about a symbol under a convention, once. -/
def Finds (r : Resolver) (s : SymbolRef) (k : Convention) (findings : List Finding) : Prop :=
  findings.Nodup ∧ ∀ f, f ∈ findings ↔ r.Violates s f k

theorem finds_of_evaluate {k : Convention} {context : Context} {s : SymbolRef} {r : Resolver}
    {found : Finding} {P : Prop} [Decidable P]
    (run : k.rule.evaluate context s = .ok (if P then [found] else []))
    (h : ∀ f, r.Violates s f k ↔ P ∧ f = found) :
    ∃ findings, k.rule.evaluate context s = .ok findings ∧ r.Finds s k findings := by
  refine ⟨_, run, ?_, fun f => ?_⟩
  · split <;> simp
  · rw [h]
    split <;> simp_all

theorem typeSymbol_of_mem (declared : t ∈ c.declaredTypes) :
    (Context.of c markers).typeSymbol (.type t.id) = .ok t := by
  simp [Context.typeSymbol, Compilation.get?_of_mem_declaredTypes declared]

theorem memberSymbol_of_mem (declared : owner ∈ c.declaredTypes) {index : Nat} {m : MemberSymbol}
    (found : owner.members[index]? = some m) :
    (Context.of c markers).memberSymbol (.member owner.id index) = .ok (owner, m) := by
  simp [Context.memberSymbol, Compilation.get?_of_mem_declaredTypes declared, found]

theorem missingSuffix_eq (t : TypeSymbol) (suffix : String) :
    Rule.missingSuffix t suffix =
      if ¬ suffix.toList <:+ t.name.toList then [.named t.name t.location [.appendSuffix suffix]]
      else [] := by
  rw [Rule.missingSuffix]
  by_cases suffixed : suffix.toList <:+ t.name.toList <;> simp [suffixed]

theorem commandNaming_finds (declared : t ∈ c.declaredTypes) :
    ∃ findings,
      Convention.commandNaming.rule.evaluate (Context.of c markers) (.type t.id) = .ok findings ∧
      Finds ⟨c, markers⟩ (.type t.id) .commandNaming findings := by
  have run : Rule.commandNaming.evaluate (Context.of c markers) (.type t.id) =
      .ok (if classify ⟨c, markers⟩ t.id = .command true then Rule.missingSuffix t "Command"
        else []) := by
    simp only [Rule.commandNaming, typeSymbol_of_mem declared, Except.map, Context.taxonomy_of]
    congr 1
    split <;> simp_all
  rw [missingSuffix_eq, ← ite_and] at run
  refine finds_of_evaluate run fun f => ?_
  rw [Violates, exists_type_iff declared, classify_command_iff declared, and_assoc]

theorem eventNaming_finds (declared : t ∈ c.declaredTypes) :
    ∃ findings,
      Convention.eventNaming.rule.evaluate (Context.of c markers) (.type t.id) = .ok findings ∧
      Finds ⟨c, markers⟩ (.type t.id) .eventNaming findings := by
  have run : Rule.eventNaming.evaluate (Context.of c markers) (.type t.id) =
      .ok (if classify ⟨c, markers⟩ t.id = .event then Rule.missingSuffix t "Event"
        else []) := by
    simp only [Rule.eventNaming, typeSymbol_of_mem declared, Except.map, Context.taxonomy_of]
    congr 1
    split <;> simp_all
  rw [missingSuffix_eq, ← ite_and] at run
  refine finds_of_evaluate run fun f => ?_
  rw [Violates, exists_type_iff declared, classify_event_iff declared, and_assoc]

theorem mutableProperty_finds (declared : owner ∈ c.declaredTypes) {index : Nat}
    {m : MemberSymbol} (found : owner.members[index]? = some m) :
    ∃ findings,
      Convention.mutableProperty.rule.evaluate (Context.of c markers) (.member owner.id index) =
        .ok findings ∧
      Finds ⟨c, markers⟩ (.member owner.id index) .mutableProperty findings := by
  have run : Rule.mutableProperty.evaluate (Context.of c markers) (.member owner.id index) =
      .ok (if m.hasPublicSetter && Rule.isMessage (Context.of c markers) owner.id then
        [.named m.name m.location [.removeSetter, .demoteSetter]] else []) := by
    simp only [Rule.mutableProperty, memberSymbol_of_mem declared found, Except.map]
  refine finds_of_evaluate run fun f => ?_
  rw [Violates, exists_member_iff declared found, Bool.and_eq_true, isMessage_iff declared,
    hasPublicSetter_iff]
  tauto

theorem messageField_finds (declared : owner ∈ c.declaredTypes) {index : Nat} {m : MemberSymbol}
    (found : owner.members[index]? = some m) (field : m.kind = .field) :
    ∃ findings,
      Convention.messageField.rule.evaluate (Context.of c markers) (.member owner.id index) =
        .ok findings ∧
      Finds ⟨c, markers⟩ (.member owner.id index) .messageField findings := by
  have run : Rule.messageField.evaluate (Context.of c markers) (.member owner.id index) =
      .ok (if !m.isBackingField && classify ⟨c, markers⟩ owner.id = .event then
        [⟨m.name, owner.name, m.location, []⟩] else []) := by
    simp only [Rule.messageField, memberSymbol_of_mem declared found, Except.map,
      Context.taxonomy_of]
  have written : m.isBackingField = false ↔
      m.kind = .field ∧ m.implicit = false ∧ ¬ "__BackingField".toList <:+ m.name.toList := by
    rw [MemberSymbol.isBackingField, field, ← List.isSuffixOf_iff_suffix]
    simp only [decide_true, Bool.true_and, Bool.or_eq_false_iff, Bool.not_eq_true, true_and]
  refine finds_of_evaluate run fun f => ?_
  rw [Violates, exists_member_iff declared found, Bool.and_eq_true, Bool.not_eq_true', written,
    decide_eq_true_eq, classify_event_iff declared]
  tauto

theorem missingBusinessRule_finds (declared : t ∈ c.declaredTypes) :
    ∃ findings,
      Convention.missingBusinessRule.rule.evaluate (Context.of c markers) (.type t.id) =
        .ok findings ∧
      Finds ⟨c, markers⟩ (.type t.id) .missingBusinessRule findings := by
  simp only [Finds, Violates, exists_type_iff declared, Convention.rule, Rule.missingBusinessRule,
    typeSymbol_of_mem declared, bind, Except.bind]
  cases handled : Rule.handledCommand (Context.of c markers) t with
  | none =>
    refine ⟨[], rfl, List.nodup_nil, fun f => ?_⟩
    simp only [List.not_mem_nil, false_iff, not_exists, not_and]
    intro command handles
    simp [(handledCommand_eq_some_iff declared).2 ⟨command, handles, rfl⟩] at handled
  | some id =>
    obtain ⟨command, handles, rfl⟩ := (handledCommand_eq_some_iff declared).1 handled
    have known : command ∈ c.types := mem_types_of_firstArgument handles.2.2.1
    have only (other : TypeSymbol) (h : Handles ⟨c, markers⟩ t other) : other = command :=
      Option.some.inj (h.2.2.1.symm.trans handles.2.2.1)
    have named : (Context.of c markers).typeSymbol (.type command.id) = .ok command := by
      simp [Context.typeSymbol, Compilation.get?_iff_mem.2 known]
    by_cases covered : (Context.of c markers).hasRuleFor command.id = true
    · refine ⟨[], by simp [covered, pure, Except.pure], List.nodup_nil, fun f => ?_⟩
      simp only [List.not_mem_nil, false_iff, not_exists, not_and]
      intro other h uncovered
      obtain ⟨rule, target, targets, same⟩ := (Context.hasRuleFor_iff known).1 covered
      exact absurd same (only other h ▸ uncovered rule target targets)
    · refine ⟨[.named t.name t.location [.synthesizeBusinessRule command.name t.qualifier]],
        by simp [covered, named, pure, Except.pure], List.nodup_singleton _, fun f => ?_⟩
      rw [List.mem_singleton]
      constructor
      · rintro rfl
        refine ⟨command, handles, fun rule target targets same => covered ?_, rfl⟩
        exact (Context.hasRuleFor_iff known).2 ⟨rule, target, targets, same⟩
      · rintro ⟨other, h, -, rfl⟩
        rw [only other h]

theorem missingImplementation_finds (declared : t ∈ c.declaredTypes) :
    ∃ findings,
      Convention.missingImplementation.rule.evaluate (Context.of c markers) (.type t.id) =
        .ok findings ∧
      Finds ⟨c, markers⟩ (.type t.id) .missingImplementation findings := by
  have run : Rule.missingImplementation.evaluate (Context.of c markers) (.type t.id) =
      .ok (if (Rule.handledCommand (Context.of c markers) t).isSome && !Rule.implementsUseCase t
        then [.named t.name t.location []] else []) := by
    simp only [Rule.missingImplementation, typeSymbol_of_mem declared, Except.map]
  have handling : (Rule.handledCommand (Context.of c markers) t).isSome = true ↔
      ∃ command, Handles ⟨c, markers⟩ t command := by
    simp [Option.isSome_iff_exists, handledCommand_eq_some_iff declared]
  refine finds_of_evaluate run fun f => ?_
  rw [Violates, exists_type_iff declared, Bool.and_eq_true, Bool.not_eq_true',
    implementsUseCase_iff, handling, and_assoc]

/-- No standard rule fails on a symbol that it is evaluated on. -/
theorem evaluate_finds (k : Convention) {s : SymbolRef}
    (visited : s ∈ c.declaredSymbols k.rule.trigger) :
    ∃ findings, k.rule.evaluate (Context.of c markers) s = .ok findings ∧
      Finds ⟨c, markers⟩ s k findings := by
  have typed (outer : k.rule.trigger = .type) :
      ∃ t ∈ c.declaredTypes, s = .type t.id :=
    Compilation.mem_declaredSymbols_type.1 (outer ▸ visited)
  have owned (inner : k.rule.trigger ≠ .type) :=
    (Compilation.mem_declaredSymbols_member inner).1 visited
  cases k with
  | commandNaming =>
    obtain ⟨t, declared, rfl⟩ := typed rfl
    exact commandNaming_finds declared
  | eventNaming =>
    obtain ⟨t, declared, rfl⟩ := typed rfl
    exact eventNaming_finds declared
  | mutableProperty =>
    obtain ⟨owner, declared, index, m, found, -, rfl⟩ := owned (by decide)
    exact mutableProperty_finds declared found
  | messageField =>
    obtain ⟨owner, declared, index, m, found, kind, rfl⟩ := owned (by decide)
    refine messageField_finds declared found ?_
    cases shape : m.kind with
    | field => rfl
    | property setter =>
      simp [MemberSymbol.visitKind, shape, Convention.rule, Rule.messageField] at kind
    | method => simp [MemberSymbol.visitKind, shape] at kind
  | missingBusinessRule =>
    obtain ⟨t, declared, rfl⟩ := typed rfl
    exact missingBusinessRule_finds declared
  | missingImplementation =>
    obtain ⟨t, declared, rfl⟩ := typed rfl
    exact missingImplementation_finds declared

end Resolver

end ConventionLint
