import ConventionLint.Proofs.Analysis.Edit
import ConventionLint.Proofs.Binding.WellFormed

/-!
# Convergence of fixes

A fix answers the diagnostics that it is meant for and raises no others: a business rule those that
miss one for its command, a setter taken away or hidden that of its property. Doing it once more
changes nothing.
-/
namespace ConventionLint

def TypeRef.Known (c : Compilation) (r : TypeRef) : Prop :=
  ∀ id, r.target = some id → id < c.types.length

/-- A reference that does not dangle, nor do its arguments at any depth. -/
inductive TypeRef.Grounded (c : Compilation) : TypeRef → Prop
  | intro {r : TypeRef} : r.Known c → (∀ a ∈ r.arguments, Grounded c a) → Grounded c r

theorem TypeRef.Bound.grounded {c : Compilation} {r : TypeRef} (h : r.Bound c) : r.Grounded c := by
  induction h with
  | intro found _ _ ih =>
    refine .intro (fun id target => ?_) ih
    obtain rfl := Option.some.inj target
    exact Resolver.id_lt_of_get? found

namespace Compilation

def Closed (c : Compilation) : Prop :=
  ∀ t ∈ c.types, ∀ r ∈ t.references, r.Grounded c

theorem closed_build (root : String) (files : List SourceFile) : (build root files).Closed :=
  fun _ member r link => (Binding.bound_of_mem_types member r link).grounded

/-- What an analysis follows, bases and their first arguments, does not dangle. -/
def BasesKnown (c : Compilation) : Prop :=
  ∀ t ∈ c.types, ∀ base, t.base = some base →
    base.Known c ∧ ∀ argument, base.arguments.head? = some argument → argument.Known c

theorem Closed.basesKnown {c : Compilation} (closed : c.Closed) : c.BasesKnown := by
  intro t member base written
  have link : base ∈ t.references := by simp [TypeSymbol.references, written]
  obtain ⟨known, arguments⟩ := closed t member base link
  refine ⟨known, fun argument first => ?_⟩
  obtain ⟨known, -⟩ := arguments argument (List.mem_of_head? first)
  exact known

end Compilation

namespace Compilation

def next (c : Compilation) (t : TypeSymbol) : TypeSymbol :=
  { t with id := c.types.length }

def append (c : Compilation) (t : TypeSymbol) : Compilation where
  types := c.types ++ [c.next t]
  files := c.files
  numbered i bound := by
    by_cases old : i < c.types.length
    · rw [List.getElem_append_left old]
      exact c.numbered i old
    · have last : i = c.types.length := by
        simp at bound
        omega
      subst last
      simp [next]

/-- A type without members that derives directly from the business rule marker and is for the
command that its base is given first. The marker is there before the type, as what is its own base
derives from nothing; the command may be the type itself. -/
structure IsRuleFor (c : Compilation) (markers : MarkerSet) (t command : TypeSymbol) : Prop where
  declared : t.kind.isDeclared = true
  memberless : t.members = []
  derives : ∃ reference, t.base = some reference ∧
    (∃ base ∈ c.types, reference.target = some base.id ∧
      markers.kindOf base = some .businessRule ∧ base.name ≠ (markers.marker .root).name) ∧
    ∃ argument, reference.arguments.head? = some argument ∧ argument.target = some command.id
  present : command ∈ (c.append t).types

variable {c : Compilation} {markers : MarkerSet} {t u command : TypeSymbol}

theorem mem_append : u ∈ (c.append t).types ↔ u ∈ c.types ∨ u = c.next t := by
  simp [append]

theorem follow_append {reference : TypeRef} (known : reference.Known c) :
    Resolver.follow ⟨c.append t, markers⟩ reference = Resolver.follow ⟨c, markers⟩ reference := by
  rw [Resolver.follow, Resolver.follow]
  cases target : reference.target with
  | none => rfl
  | some id => exact List.getElem?_append_left (known id target)

namespace IsRuleFor

variable (rule : c.IsRuleFor markers t command)
include rule

theorem nearestMarker : Resolver.NearestMarker ⟨c.append t, markers⟩ (c.next t).id .businessRule
    true := by
  obtain ⟨reference, written, ⟨base, present, target, marked, below⟩, -⟩ := rule.derives
  have link : Resolver.directBase ⟨c.append t, markers⟩ (c.next t).id = some base := by
    rw [Resolver.directBase_of_mem (mem_append.2 (.inr rfl)), next, written, Option.bind_some,
      Resolver.follow, target, Option.bind_some]
    exact get?_iff_mem.2 (mem_append.2 (.inl present))
  refine ⟨[], base, ⟨.cons link (.nil _), ?_, ?_⟩, marked, by simp, by simp, rfl⟩
  · simpa using below
  · have old := Resolver.id_lt_of_get? (get?_iff_mem.2 present)
    simpa [next] using old.ne'

theorem targets : Resolver.Targets ⟨c.append t, markers⟩ (c.next t) command := by
  have last : c.next t ∈ (c.append t).types := mem_append.2 (.inr rfl)
  refine ⟨mem_declaredTypes.2 ⟨last, rule.declared⟩, ⟨true, rule.nearestMarker⟩, ?_⟩
  obtain ⟨reference, written, -, argument, first, target⟩ := rule.derives
  rw [Resolver.firstArgument_of_mem last, next, written, Option.bind_some, first, Option.bind_some,
    Resolver.follow, target, Option.bind_some]
  exact get?_iff_mem.2 rule.present

/-- A rule more is an edit. -/
theorem carries (bases : c.BasesKnown) :
    Resolver.Carries ⟨c, markers⟩ ⟨c.append t, markers⟩ (fun u => u) [c.next t] where
  markers := rfl
  types := by
    rw [List.map_id']
    rfl
  kept _ := rfl
  base u present := by
    rw [Option.map_id', Resolver.directBase_of_mem (mem_append.2 (.inl present)),
      Resolver.directBase_of_mem present]
    cases written : u.base with
    | none => rfl
    | some base => exact follow_append (bases u present base written).1
  argument u present := by
    rw [Option.map_id', Resolver.firstArgument_of_mem (mem_append.2 (.inl present)),
      Resolver.firstArgument_of_mem present]
    cases written : u.base with
    | none => rfl
    | some base =>
      rw [Option.bind_some, Option.bind_some]
      cases first : base.arguments.head? with
      | none => rfl
      | some argument => exact follow_append ((bases u present base written).2 argument first)
  idle := by
    intro u new kind direct nearest
    obtain rfl := List.mem_singleton.1 new
    exact nearest.kind_unique rule.nearestMarker
  memberless := by
    intro u new
    obtain rfl := List.mem_singleton.1 new
    exact rule.memberless

/-- Bases and first arguments lead to types after a rule was added, too. -/
theorem basesKnown (bases : c.BasesKnown) : (c.append t).BasesKnown := by
  have longer : (c.append t).types.length = c.types.length + 1 := by simp [append]
  have mono {r : TypeRef} (known : r.Known c) : r.Known (c.append t) := by
    intro id target
    exact longer ▸ Nat.lt_succ_of_lt (known id target)
  have leads {r : TypeRef} {a : TypeSymbol} (target : r.target = some a.id)
      (present : a ∈ (c.append t).types) : r.Known (c.append t) := by
    intro id same
    obtain rfl := Option.some.inj (target.symm.trans same)
    exact Resolver.id_lt_of_get? (get?_iff_mem.2 present)
  intro u member base written
  rcases mem_append.1 member with old | rfl
  · obtain ⟨known, arguments⟩ := bases u old base written
    exact ⟨mono known, fun argument first => mono (arguments argument first)⟩
  · obtain ⟨reference, here, ⟨marker, present, target, -⟩, argument, first, command⟩ :=
      rule.derives
    obtain rfl := Option.some.inj (here.symm.trans written)
    refine ⟨leads target (mem_append.2 (.inl present)), fun a head => ?_⟩
    obtain rfl := Option.some.inj (first.symm.trans head)
    exact leads command rule.present

/-- A rule may be added again. -/
theorem again : (c.append t).IsRuleFor markers t command where
  declared := rule.declared
  memberless := rule.memberless
  derives := by
    obtain ⟨reference, written, ⟨base, present, link⟩, argument⟩ := rule.derives
    exact ⟨reference, written, ⟨base, mem_append.2 (.inl present), link⟩, argument⟩
  present := mem_append.2 (.inl rule.present)

end IsRuleFor

end Compilation

namespace Resolver

variable {r : Resolver}

theorem Targets.unique {rule target other : TypeSymbol} (h : r.Targets rule target)
    (h' : r.Targets rule other) : target = other :=
  Option.some.inj (h.2.2.symm.trans h'.2.2)

/-- A violation is that a use case of the command, or of an external type written like it, lacks a
business rule. -/
def LacksRuleFor (r : Resolver) (command : TypeSymbol) (v : Violation) : Prop :=
  v.convention = .missingBusinessRule ∧ ∃ useCase handled, v.symbol = .type useCase.id ∧
    r.Handles useCase handled ∧ Compilation.SameCommand command handled

/-- What lacks a rule is a use case of a command that no rule targets. -/
theorem LacksRuleFor.uncovered {command rule : TypeSymbol} {v : Violation}
    (lacks : r.LacksRuleFor command v)
    (broken : r.Violates v.symbol v.finding v.convention) : ¬ r.Targets rule command := by
  intro targets
  obtain ⟨convention, useCase, handled, symbol, handles, same⟩ := lacks
  rw [convention, symbol] at broken
  obtain ⟨other, handles', bare, -⟩ := (exists_type_iff handles.1).1 broken
  exact bare rule command targets (handles.unique handles' ▸ same)

end Resolver

namespace Compilation

variable {c : Compilation} {markers : MarkerSet} {t u command : TypeSymbol}

namespace IsRuleFor

variable (rule : c.IsRuleFor markers t command) (bases : c.BasesKnown)
include rule bases

theorem violates_iff (v : Violation) :
    Resolver.Violates ⟨c.append t, markers⟩ v.symbol v.finding v.convention ↔
      Resolver.Violates ⟨c, markers⟩ v.symbol v.finding v.convention ∧
        ¬ Resolver.LacksRuleFor ⟨c, markers⟩ command v := by
  obtain ⟨k, s, f⟩ := v
  have edit := rule.carries bases
  by_cases ruled : k = .missingBusinessRule
  · subst ruled
    dsimp only
    rw [edit.missingBusinessRule_iff, Resolver.LacksRuleFor]
    refine and_congr_right fun _ => ?_
    simp only [true_and, List.mem_singleton, forall_eq, not_exists, not_and]
    constructor
    · intro spared useCase handled symbol handles
      exact spared useCase handled symbol handles command rule.targets
    · intro spared useCase handled symbol handles target targets
      exact targets.unique rule.targets ▸ spared useCase handled symbol handles
  · have kept : ¬ Resolver.LacksRuleFor ⟨c, markers⟩ command ⟨k, s, f⟩ := fun lacks =>
      ruled lacks.1
    by_cases settable : k = .mutableProperty
    · subst settable
      simp only [kept, not_false_eq_true, and_true]
      exact edit.mutableProperty_iff
    · simp only [kept, not_false_eq_true, and_true]
      exact edit.violates_iff ruled settable

theorem declaredTypes_append : (c.append t).declaredTypes = c.declaredTypes ++ [c.next t] := by
  have last : (c.next t).kind.isDeclared = true := rule.declared
  simpa [last] using (rule.carries bases).declaredTypes_eq

theorem declaredSymbols_append (kind : VisitKind) :
    ∃ added, (c.append t).declaredSymbols kind = c.declaredSymbols kind ++ added := by
  cases kind with
  | type =>
    exact ⟨[.type (c.next t).id], by simp [declaredSymbols, rule.declaredTypes_append bases]⟩
  | property | field =>
    have none : (c.next t).members = [] := rule.memberless
    exact ⟨[], by simp [declaredSymbols, rule.declaredTypes_append bases, membersOfKind, none]⟩

open Classical in
/-- A rule more takes away what it answers. -/
theorem reported_append (severity : Convention → Option Severity) :
    (c.append t).reported markers severity = (c.reported markers severity).filter fun e =>
      ¬ Resolver.LacksRuleFor ⟨c, markers⟩ command e.1 :=
  reported_filter (rule.violates_iff bases) (rule.declaredSymbols_append bases)

/-- Another rule for the same command has nothing to answer. -/
theorem reported_again {t' : TypeSymbol} (further : (c.append t).IsRuleFor markers t' command)
    (severity : Convention → Option Severity) :
    ((c.append t).append t').reported markers severity
      = (c.append t).reported markers severity := by
  classical
  rw [further.reported_append (rule.basesKnown bases), List.filter_eq_self]
  rintro ⟨v, d⟩ member
  obtain ⟨broken, -⟩ := mem_reported.1 member
  simpa using fun lacks : Resolver.LacksRuleFor _ _ _ => lacks.uncovered broken rule.targets

end IsRuleFor

def withSetter (c : Compilation) (owner : TypeId) (index : Nat) (setter : Option Setter) :
    Compilation where
  types := c.types.map (.withSetter owner index setter)
  files := c.files
  numbered i bound := by simpa using c.numbered i (by simpa using bound)

variable {owner : TypeId} {index : Nat} {setter : Option Setter}

theorem withSetter_withSetter (other : Option Setter) :
    (c.withSetter owner index other).withSetter owner index setter
      = c.withSetter owner index setter := by
  rw [mk.injEq]
  refine ⟨?_, rfl⟩
  simp [withSetter]

theorem follow_withSetter (reference : TypeRef) :
    Resolver.follow ⟨c.withSetter owner index setter, markers⟩ reference
      = (Resolver.follow ⟨c, markers⟩ reference).map (.withSetter owner index setter) := by
  rw [Resolver.follow, Resolver.follow]
  cases reference.target with
  | none => rfl
  | some id => exact List.getElem?_map

/-- Another setter is an edit. -/
theorem carries_withSetter : Resolver.Carries ⟨c, markers⟩
    ⟨c.withSetter owner index setter, markers⟩ (.withSetter owner index setter) [] where
  markers := rfl
  types := (List.append_nil _).symm
  kept _ := TypeSymbol.withoutSetters_withSetter
  base t present := by
    have link := Resolver.directBase_of_mem (r := ⟨c.withSetter owner index setter, markers⟩)
      (List.mem_map_of_mem present)
    rw [TypeSymbol.withSetter_id, TypeSymbol.withSetter_base] at link
    rw [link, Resolver.directBase_of_mem present]
    cases t.base with
    | none => rfl
    | some base => exact follow_withSetter base
  argument t present := by
    have link := Resolver.firstArgument_of_mem (r := ⟨c.withSetter owner index setter, markers⟩)
      (List.mem_map_of_mem present)
    rw [TypeSymbol.withSetter_id, TypeSymbol.withSetter_base] at link
    rw [link, Resolver.firstArgument_of_mem present]
    cases t.base with
    | none => rfl
    | some base =>
      rw [Option.bind_some, Option.bind_some]
      cases base.arguments.head? with
      | none => rfl
      | some argument => exact follow_withSetter argument
  idle t new := nomatch new
  memberless t new := nomatch new

theorem declaredTypes_withSetter : (c.withSetter owner index setter).declaredTypes
    = c.declaredTypes.map (.withSetter owner index setter) := by
  have kinds : (fun t : TypeSymbol => t.kind.isDeclared) ∘ TypeSymbol.withSetter owner index setter
      = fun t => t.kind.isDeclared := by
    funext t
    simp
  rw [declaredTypes, declaredTypes, withSetter, List.filter_map, kinds]

section

variable (hidden : ∀ s, setter = some s → s.accessibility ≠ .publicAccess)
include hidden

/-- A property whose setter is hidden is mended, and nothing else is. -/
theorem violates_withSetter_iff (v : Violation) :
    Resolver.Violates ⟨c.withSetter owner index setter, markers⟩ v.symbol v.finding v.convention ↔
      Resolver.Violates ⟨c, markers⟩ v.symbol v.finding v.convention ∧
        ¬ (v.convention = .mutableProperty ∧ v.symbol = .member owner index) := by
  obtain ⟨k, s, f⟩ := v
  have edit : Resolver.Carries ⟨c, markers⟩ ⟨c.withSetter owner index setter, markers⟩ _ _ :=
    carries_withSetter
  dsimp only
  by_cases settable : k = .mutableProperty
  · subst settable
    rw [edit.mutableProperty_iff]
    simp only [true_and]
    constructor
    · rintro ⟨t, declared, i, m, found, rfl, message, public', rfl⟩
      rw [TypeSymbol.getElem?_withSetter, Option.map_eq_some_iff] at found
      obtain ⟨m', found, rfl⟩ := found
      by_cases here : t.id = owner ∧ index = i
      · rw [if_pos here] at public'
        obtain ⟨other, kind, shown, -⟩ := public'
        exact absurd shown (hidden other (MemberSymbol.setter_of_withSetter kind))
      · rw [if_neg here] at public' ⊢
        refine ⟨⟨t, declared, i, m', found, rfl, message, public', rfl⟩, ?_⟩
        simpa [eq_comm] using here
    · rintro ⟨⟨t, declared, i, m, found, rfl, message, public', rfl⟩, apart⟩
      have here : ¬ (t.id = owner ∧ index = i) := by simpa [eq_comm] using apart
      refine ⟨t, declared, i, m, ?_, rfl, message, public', rfl⟩
      rw [TypeSymbol.getElem?_withSetter, found, Option.map_some, if_neg here]
  · simp only [settable, false_and, not_false_eq_true, and_true]
    by_cases ruled : k = .missingBusinessRule
    · subst ruled
      rw [edit.missingBusinessRule_iff]
      simp
    · exact edit.violates_iff ruled settable

theorem reported_withSetter (severity : Convention → Option Severity) :
    (c.withSetter owner index setter).reported markers severity
      = (c.reported markers severity).filter fun e =>
          ¬ (e.1.convention = .mutableProperty ∧ e.1.symbol = .member owner index) := by
  refine reported_filter (violates_withSetter_iff hidden) fun kind => ⟨[], ?_⟩
  rw [List.append_nil]
  refine declaredSymbols_congr ?_ kind
  rw [declaredTypes_withSetter, List.map_map]
  refine List.map_congr_left fun t _ => ?_
  have kinds : (t.withSetter owner index setter).members.map (·.visitKind)
      = t.members.map (·.visitKind) :=
    TypeSymbol.map_withSetter (MemberSymbol.withSetter_visitKind setter)
  simp [kinds]

end

/-- The severities at which the conventions are reported if nothing else is wanted. -/
def standardSeverity (k : Convention) : Option Severity :=
  some k.rule.descriptor.severity

theorem analyze_standard (c : Compilation) (markers : MarkerSet) :
    c.analyze .standard markers false = .ok
      { Report.empty with
        diagnostics := (c.reported markers standardSeverity).map (·.2)
        fileCount := c.files.length
        typeCount := c.declaredTypes.length } :=
  analyze_eq_reported c markers standardSeverity false

/-- What is reported is told by its convention and its symbol. -/
theorem eq_entry_iff {f : Finding} {d : Diagnostic} {severity : Convention → Option Severity}
    {k : Convention} {s : SymbolRef} (listed : (⟨k, s, f⟩, d) ∈ c.reported markers severity)
    {e : Violation × Diagnostic} (member : e ∈ c.reported markers severity) :
    e = (⟨k, s, f⟩, d) ↔ e.1.convention = k ∧ e.1.symbol = s := by
  constructor
  · rintro rfl
    exact ⟨rfl, rfl⟩
  · obtain ⟨⟨k', s', f'⟩, d'⟩ := e
    rintro ⟨convention, symbol⟩
    dsimp only at convention symbol
    subst convention symbol
    obtain ⟨broken, raised⟩ := mem_reported.1 listed
    obtain ⟨broken', raised'⟩ := mem_reported.1 member
    have findings : f = f' := broken.finding_unique broken'
    subst findings
    rw [Option.some.inj (raised.symm.trans raised')]

open Classical in
/-- The diagnostics of a report on a compilation in which no target dangles are those of its
violations. A business rule more takes away exactly the diagnostics of use cases that missed a rule
for its command, and a property that is reported loses its diagnostic with its public setter. No
other diagnostic comes, goes or changes its place, and either edit leaves nothing for another one
of its kind to take away. -/
theorem analyze_converges (c : Compilation) (markers : MarkerSet) (closed : c.Closed) :
    ∃ (report : Report) (entries : List (Violation × Diagnostic)),
      c.analyze .standard markers false = .ok report ∧
      report.diagnostics = entries.map (·.2) ∧
      (entries.map (·.1)).Nodup ∧
      (∀ v d, (v, d) ∈ entries ↔
        Resolver.Violates ⟨c, markers⟩ v.symbol v.finding v.convention ∧
          v.diagnostic? standardSeverity = some d) ∧
      (∀ t command, c.IsRuleFor markers t command →
        (c.append t).analyze .standard markers false = .ok
          { report with
            diagnostics := (entries.filter fun e =>
              ¬ Resolver.LacksRuleFor ⟨c, markers⟩ command e.1).map (·.2)
            typeCount := report.typeCount + 1 } ∧
        (c.append t).IsRuleFor markers t command ∧
        ∀ t', (c.append t).IsRuleFor markers t' command →
          ((c.append t).append t').analyze .standard markers false = .ok
            { report with
              diagnostics := (entries.filter fun e =>
                ¬ Resolver.LacksRuleFor ⟨c, markers⟩ command e.1).map (·.2)
              typeCount := report.typeCount + 2 }) ∧
      ∀ owner index f d, (⟨.mutableProperty, .member owner index, f⟩, d) ∈ entries →
        ∀ setter : Option Setter, (∀ s, setter = some s → s.accessibility ≠ .publicAccess) →
          (c.withSetter owner index setter).analyze .standard markers false = .ok
            { report with
              diagnostics := (entries.filter fun e =>
                e ≠ (⟨.mutableProperty, .member owner index, f⟩, d)).map (·.2) } ∧
          ∀ other : Option Setter, (∀ s, other = some s → s.accessibility ≠ .publicAccess) →
            ((c.withSetter owner index setter).withSetter owner index other).analyze .standard
                markers false
              = (c.withSetter owner index setter).analyze .standard markers false := by
  have bases := closed.basesKnown
  refine ⟨_, c.reported markers standardSeverity, analyze_standard c markers, rfl, reported_nodup,
    fun v d => mem_reported, ?_, ?_⟩
  · intro t command rule
    have left := rule.reported_append bases standardSeverity
    refine ⟨?_, rule.again, fun t' further => ?_⟩
    · rw [analyze_standard, left, rule.declaredTypes_append bases, List.length_append]
      rfl
    · rw [analyze_standard, rule.reported_again bases further, left,
        further.declaredTypes_append (rule.basesKnown bases), rule.declaredTypes_append bases,
        List.length_append, List.length_append]
      rfl
  · intro owner index f d listed setter hidden
    have report (setter : Option Setter)
        (hidden : ∀ s, setter = some s → s.accessibility ≠ .publicAccess) :
        (c.withSetter owner index setter).analyze .standard markers false = .ok
          { Report.empty with
            diagnostics := ((c.reported markers standardSeverity).filter fun e =>
              e ≠ (⟨.mutableProperty, .member owner index, f⟩, d)).map (·.2)
            fileCount := c.files.length
            typeCount := c.declaredTypes.length } := by
      have left : (c.withSetter owner index setter).reported markers standardSeverity
          = (c.reported markers standardSeverity).filter fun e =>
              e ≠ (⟨.mutableProperty, .member owner index, f⟩, d) := by
        rw [reported_withSetter hidden]
        refine List.filter_congr fun e member => decide_eq_decide.2 ?_
        exact not_congr (eq_entry_iff listed member).symm
      rw [analyze_standard, left, declaredTypes_withSetter, List.length_map]
      rfl
    refine ⟨report setter hidden, fun other hidden' => ?_⟩
    rw [withSetter_withSetter, report setter hidden, report other hidden']

/-- A command with a public setter, a use case of it without a rule, and a rule for another type. -/
def shopFile : SourceFile where
  path := ⟨"Shop.cs"⟩
  imports := []
  aliases := []
  types :=
    [⟨"AddCommand", .plainClass, some "Shop", [], [],
      [⟨"Name", .property (some ⟨.publicAccess, false⟩) true, .publicAccess, ⟨2, 5⟩⟩], [], ⟨1, 1⟩,
      false⟩,
     ⟨"Add", .plainClass, some "Shop", [],
      [⟨some "Slalom.Stacks.Messaging", "UseCase", [.simple "AddCommand"]⟩], [], [], ⟨3, 1⟩, false⟩,
     ⟨"SpareRule", .plainClass, some "Shop", [],
      [⟨some "Slalom.Stacks.Messaging.Validation", "BusinessRule", [.simple "Add"]⟩], [], [],
      ⟨4, 1⟩, false⟩]

def shop : Compilation :=
  build "System.Object" [shopFile]

def shopMarkers : MarkerSet where
  marker
    | .root => ⟨"System.Object", some "System", "Object"⟩
    | .command => ⟨"Slalom.Stacks.Messaging.Command", some "Slalom.Stacks.Messaging", "Command"⟩
    | .event => ⟨"Slalom.Stacks.Messaging.Event", some "Slalom.Stacks.Messaging", "Event"⟩
    | .useCase => ⟨"Slalom.Stacks.Messaging.UseCase", some "Slalom.Stacks.Messaging", "UseCase"⟩
    | .businessRule => ⟨"Slalom.Stacks.Messaging.Validation.BusinessRule",
        some "Slalom.Stacks.Messaging.Validation", "BusinessRule"⟩
  strict := false

/-- The rule that the use case lacks. -/
def addRule : TypeSymbol where
  id := 0
  name := "AddRule"
  qualifier := some "Shop"
  kind := .plainClass
  typeParameters := []
  base := some ⟨"BusinessRule", some 5, [⟨"AddCommand", some 0, []⟩]⟩
  interfaces := []
  members := []
  location := none
  imports := []
  container := none

def missingRule : Violation :=
  ⟨.missingBusinessRule, .type 1, .named "Add" (some ⟨⟨"Shop.cs"⟩, 3, 1⟩)
    [.synthesizeBusinessRule "AddCommand" (some "Shop")]⟩

def mutableName : Violation :=
  ⟨.mutableProperty, .member 0 0, .named "Name" (some ⟨⟨"Shop.cs"⟩, 2, 5⟩)
    [.removeSetter, .demoteSetter]⟩

theorem isRuleFor_addRule :
    ∃ command, command.id = 0 ∧ shop.IsRuleFor shopMarkers addRule command := by
  have marker : ((shop.get? 5).any fun base => shopMarkers.kindOf base = some .businessRule ∧
      base.name ≠ (shopMarkers.marker .root).name) = true := by decide +kernel
  have given : ((shop.append addRule).get? 0).isSome = true := by decide +kernel
  obtain ⟨base, found, decided⟩ := (Option.any_eq_true _ _).1 marker
  obtain ⟨command, present⟩ := Option.isSome_iff_exists.1 given
  have five := id_of_get? found
  have zero := id_of_get? present
  rw [← five] at found
  rw [← zero] at present
  refine ⟨command, zero, rfl, rfl, ⟨_, rfl, ⟨base, get?_iff_mem.1 found, ?_, ?_⟩, _, rfl, ?_⟩,
    get?_iff_mem.1 present⟩
  · rw [five]
  · simpa using decided
  · rw [zero]

theorem lacksRuleFor_missingRule (zero : command.id = 0) :
    Resolver.LacksRuleFor ⟨shop, shopMarkers⟩ command missingRule := by
  have visited : SymbolRef.type 1 ∈ shop.declaredSymbols .type := by decide +kernel
  obtain ⟨t, declared, same⟩ := mem_declaredSymbols_type.1 visited
  have handling : Resolver.classify ⟨shop, shopMarkers⟩ t.id = .useCase (some 0) true := by
    rw [← SymbolRef.type.inj same]
    decide +kernel
  obtain ⟨handled, handles, first⟩ :=
    (Resolver.classify_useCase_iff_handles (r := ⟨shop, shopMarkers⟩) declared).1 handling
  exact ⟨rfl, t, handled, same, handles, .inl (zero.trans first.symm)⟩

/-- The rule takes the use case off the report, and either way to hide the setter the property. -/
theorem analyze_converges_shop :
    ∃ (report : Report) (entries : List (Violation × Diagnostic)) (rule setter : Diagnostic)
      (command : TypeSymbol),
      shop.analyze .standard shopMarkers false = .ok report ∧
      report.diagnostics = entries.map (·.2) ∧
      (missingRule, rule) ∈ entries ∧ (mutableName, setter) ∈ entries ∧
      Resolver.LacksRuleFor ⟨shop, shopMarkers⟩ command missingRule ∧
      (∃ kept : List (Violation × Diagnostic), (missingRule, rule) ∉ kept ∧
        (mutableName, setter) ∈ kept ∧
        (shop.append addRule).analyze .standard shopMarkers false = .ok
          { report with
            diagnostics := kept.map (·.2)
            typeCount := report.typeCount + 1 }) ∧
      ∃ kept : List (Violation × Diagnostic), (missingRule, rule) ∈ kept ∧
        (mutableName, setter) ∉ kept ∧
        (shop.withSetter 0 0 none).analyze .standard shopMarkers false = .ok
          { report with diagnostics := kept.map (·.2) } ∧
        ((shop.withSetter 0 0 none).withSetter 0 0 (some ⟨.privateAccess, false⟩)).analyze .standard
          shopMarkers false = .ok { report with diagnostics := kept.map (·.2) } := by
  obtain ⟨command, zero, isRule⟩ := isRuleFor_addRule
  have lacks := lacksRuleFor_missingRule zero
  obtain ⟨report, entries, run, shown, -, listed, ruled, hidden⟩ :=
    analyze_converges shop shopMarkers (closed_build _ _)
  obtain ⟨rule, raised⟩ : ∃ d, missingRule.diagnostic? standardSeverity = some d := ⟨_, rfl⟩
  obtain ⟨setter, raised'⟩ : ∃ d, mutableName.diagnostic? standardSeverity = some d := ⟨_, rfl⟩
  -- the findings are evaluated and not the report, which is sorted
  have entry {v : Violation} {d : Diagnostic} (raised : v.diagnostic? standardSeverity = some d)
      (visited : v.symbol ∈ shop.declaredSymbols v.convention.rule.trigger)
      (found : v.finding ∈ Resolver.findings ⟨shop, shopMarkers⟩ v.convention v.symbol) :
      (v, d) ∈ entries :=
    (listed v d).2 ⟨((Resolver.finds_findings (r := ⟨shop, shopMarkers⟩) visited).2 _).1 found,
      raised⟩
  have missing : (missingRule, rule) ∈ entries :=
    entry raised (by decide +kernel) (by decide +kernel)
  have mutable : (mutableName, setter) ∈ entries :=
    entry raised' (by decide +kernel) (by decide +kernel)
  obtain ⟨without, -⟩ := ruled addRule command isRule
  obtain ⟨removed, again⟩ := hidden 0 0 _ _ mutable none (by simp)
  have demoted := again (some ⟨.privateAccess, false⟩) (by simp)
  refine ⟨report, entries, rule, setter, command, run, shown, missing, mutable, lacks,
    ⟨_, ?_, ?_, without⟩, ⟨_, ?_, ?_, removed, demoted.trans removed⟩⟩
  · simp [lacks]
  · have other : ¬ Resolver.LacksRuleFor ⟨shop, shopMarkers⟩ command mutableName :=
      fun lacks => Convention.noConfusion lacks.1
    simp [mutable, other]
  · have other : (missingRule, rule) ≠ (mutableName, setter) :=
      fun same => Convention.noConfusion (congrArg (·.1.convention) same)
    exact List.mem_filter.2 ⟨missing, decide_eq_true other⟩
  · exact fun member => of_decide_eq_true (List.mem_filter.1 member).2 rfl

end Compilation

end ConventionLint
