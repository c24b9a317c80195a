import ConventionLint.Config.Validation
import ConventionLint.Proofs.Analysis.Violation
import ConventionLint.Proofs.Lists

/-!
# Reported violations

A pass with selected standard rules reports the violations of the conventions that are selected and
nothing else, in whatever order it visits the symbols: one diagnostic for each violation that has a
valid place, and no fault.
-/
namespace ConventionLint

section

variable {argument before behind : List Char}

theorem fillTemplate_of_notMem (plain : '\x7b' ∉ before) :
    fillTemplate argument before = before := by
  fun_induction fillTemplate argument before with
  | case1 rest ih => simp at plain
  | case2 c rest other ih => rw [ih (List.not_mem_of_not_mem_cons plain)]
  | case3 => rfl

theorem fillTemplate_append (plain : '\x7b' ∉ before) :
    fillTemplate argument (before ++ behind) = before ++ fillTemplate argument behind := by
  induction before with
  | nil => rfl
  | cons c before ih =>
    rw [List.mem_cons, not_or] at plain
    rw [List.cons_append, fillTemplate, ih plain.2, List.cons_append]
    rintro rest rfl
    exact absurd rfl plain.1

end

namespace Convention

def code : Convention → String
  | .commandNaming => "SS001"
  | .eventNaming => "SS002"
  | .mutableProperty => "SS101"
  | .messageField => "SS102"
  | .missingBusinessRule => "SS301"
  | .missingImplementation => "SS302"

/-- What a message says before and behind the name it is about. -/
def wording : Convention → String × String
  | .commandNaming => ("The type name '", "' should end in 'Command'")
  | .eventNaming => ("The type name '", "' should end in 'Event'")
  | .mutableProperty => ("The property '", "' cannot be mutable.")
  | .messageField => ("The message type '", "' cannot have fields.")
  | .missingBusinessRule => ("The use case '", "' should have rules.")
  | .missingImplementation => ("The use case '", "' should have an implementation.")

theorem code_descriptorAt (k : Convention) (level : Severity) :
    (k.descriptorAt level).code = k.code := by
  cases k <;> rfl

theorem message_descriptorAt (k : Convention) (level : Severity) (argument : String) :
    (k.descriptorAt level).message argument = k.wording.1 ++ argument ++ k.wording.2 := by
  have parts : k.rule.descriptor.template.toList
      = k.wording.1.toList ++ '\x7b' :: '0' :: '\x7d' :: k.wording.2.toList := by
    cases k <;> decide
  have plain : '\x7b' ∉ k.wording.1.toList ∧ '\x7b' ∉ k.wording.2.toList := by
    cases k <;> decide
  rw [descriptorAt, Descriptor.message, parts, fillTemplate_append plain.1, fillTemplate,
    fillTemplate_of_notMem plain.2, ← String.toList_inj]
  simp

end Convention

def Config.severityOf (c : Config) (k : Convention) : Option Severity :=
  match c.override? k.code with
  | none => some k.rule.descriptor.severity
  | some o => if o.enabled then some (o.severity.getD k.rule.descriptor.severity) else none

/-- The rules of a configuration are the conventions at the severities that it gives them. -/
theorem Config.ruleSet_eq_select {c : Config} {rules : RuleSet}
    (registered : c.ruleSet = .ok rules) :
    rules = .select c.severityOf c.reportInternalErrors := by
  have each (k : Convention) : c.register k.rule = (c.severityOf k).map (⟨k.rule, ·⟩) := by
    have code : k.rule.descriptor.code = k.code := by cases k <;> rfl
    rw [register, severityOf, code]
    cases c.override? k.code with
    | none => rfl
    | some o =>
      dsimp only
      split <;> rfl
  obtain ⟨-, -, made⟩ := bind_eq_ok registered
  rw [← Except.ok.inj made, RuleSet.select, ← Convention.rule_all, List.filterMap_map]
  congr 1
  exact List.filterMap_congr fun k _ => each k

structure Violation where
  convention : Convention
  symbol : SymbolRef
  finding : Finding
deriving DecidableEq, Repr

namespace Violation

/-- The diagnostic of a violation whose convention is selected. -/
def diagnostic? (severity : Convention → Option Severity) (v : Violation) : Option Diagnostic :=
  (severity v.convention).bind fun level => v.finding.diagnostic? (v.convention.descriptorAt level)

structure IsReportedAs (v : Violation) (d : Diagnostic) : Prop where
  code : d.code = v.convention.code
  message : d.message = v.convention.wording.1 ++ v.finding.argument ++ v.convention.wording.2
  symbol : d.symbol = v.finding.symbol
  location : v.finding.location = some d.location
  valid : d.location.isValid = true
  fixes : d.fixes = v.finding.fixes

variable {severity : Convention → Option Severity} {v : Violation} {d : Diagnostic}

/-- A violation is reported if its convention is selected and it has a valid place. -/
theorem diagnostic?_eq_none_iff : v.diagnostic? severity = none ↔
    severity v.convention = none ∨ ∀ location, v.finding.location = some location →
      location.isValid = false := by
  rw [diagnostic?]
  cases severity v.convention with
  | none => simp
  | some level => simp [Finding.diagnostic?, Option.filter_eq_none_iff]

theorem isReportedAs_of_diagnostic? (reported : v.diagnostic? severity = some d) :
    severity v.convention = some d.severity ∧ v.IsReportedAs d := by
  obtain ⟨level, selected, found⟩ := Option.bind_eq_some_iff.1 reported
  obtain ⟨location, place, rfl⟩ := Option.map_eq_some_iff.1 found
  obtain ⟨located, valid⟩ := Option.filter_eq_some_iff.1 place
  exact ⟨selected, v.convention.code_descriptorAt level,
    v.convention.message_descriptorAt level v.finding.argument, rfl, located, valid, rfl⟩

end Violation

namespace Resolver

/-- A rule that fails has nothing to say. -/
def findings (r : Resolver) (k : Convention) (s : SymbolRef) : List Finding :=
  ((k.rule.evaluate (Context.of r.compilation r.markers) s).toOption).getD []

def violationsOf (r : Resolver) (s : SymbolRef) : List Violation :=
  (Convention.all.filter fun k => r.compilation.visitKind s = some k.rule.trigger).flatMap fun k =>
    (r.findings k s).map (⟨k, s, ·⟩)

def violationsIn (r : Resolver) (order : List SymbolRef) : List Violation :=
  order.flatMap r.violationsOf

variable {r : Resolver} {k : Convention} {s : SymbolRef} {f : Finding} {order : List SymbolRef}

theorem evaluate_eq_findings (visited : s ∈ r.compilation.declaredSymbols k.rule.trigger) :
    k.rule.evaluate (Context.of r.compilation r.markers) s = .ok (r.findings k s) := by
  obtain ⟨found, run, -⟩ := evaluate_finds k visited
  rw [findings, run]
  rfl

theorem finds_findings (visited : s ∈ r.compilation.declaredSymbols k.rule.trigger) :
    r.Finds s k (r.findings k s) := by
  obtain ⟨found, run, finds⟩ := evaluate_finds k visited
  rw [findings, run]
  exact finds

/-- What breaks a convention is visited as what its rule looks at. -/
theorem Violates.visited (h : r.Violates s f k) :
    s ∈ r.compilation.declaredSymbols k.rule.trigger := by
  cases k with
  | commandNaming =>
    obtain ⟨t, declared, rfl, -⟩ := h
    exact Compilation.mem_declaredSymbols_type.2 ⟨t, declared, rfl⟩
  | eventNaming =>
    obtain ⟨t, declared, rfl, -⟩ := h
    exact Compilation.mem_declaredSymbols_type.2 ⟨t, declared, rfl⟩
  | mutableProperty =>
    obtain ⟨owner, declared, index, property, found, rfl, -, ⟨setter, kind, -⟩, -⟩ := h
    exact (Compilation.mem_declaredSymbols_member (by decide)).2
      ⟨owner, declared, index, property, found, by simp [MemberSymbol.visitKind, kind]; rfl, rfl⟩
  | messageField =>
    obtain ⟨owner, declared, index, field, found, rfl, -, ⟨kind, -⟩, -⟩ := h
    exact (Compilation.mem_declaredSymbols_member (by decide)).2
      ⟨owner, declared, index, field, found, by simp [MemberSymbol.visitKind, kind]; rfl, rfl⟩
  | missingBusinessRule =>
    obtain ⟨t, declared, rfl, -⟩ := h
    exact Compilation.mem_declaredSymbols_type.2 ⟨t, declared, rfl⟩
  | missingImplementation =>
    obtain ⟨t, declared, rfl, -⟩ := h
    exact Compilation.mem_declaredSymbols_type.2 ⟨t, declared, rfl⟩

/-- Visited symbols are among the declared ones of the kind that triggers a rule exactly if that is
the kind they are visited as. -/
theorem mem_declaredSymbols_iff (visitable : s ∈ r.compilation.visitableSymbols)
    {kind : VisitKind} :
    s ∈ r.compilation.declaredSymbols kind ↔ r.compilation.visitKind s = some kind := by
  refine ⟨Compilation.visitKind_of_mem, fun shown => ?_⟩
  obtain ⟨other, declared⟩ := Compilation.mem_visitableSymbols.1 visitable
  obtain rfl := Option.some.inj ((Compilation.visitKind_of_mem declared).symm.trans shown)
  exact declared

theorem mem_violationsOf {v : Violation} (visitable : s ∈ r.compilation.visitableSymbols) :
    v ∈ r.violationsOf s ↔ v.symbol = s ∧ r.Violates s v.finding v.convention := by
  simp only [violationsOf, List.mem_flatMap, List.mem_filter, Convention.mem_all, true_and,
    decide_eq_true_eq, List.mem_map, ← mem_declaredSymbols_iff visitable]
  constructor
  · rintro ⟨k, visited, f, found, rfl⟩
    exact ⟨rfl, ((finds_findings visited).2 f).1 found⟩
  · rintro ⟨rfl, broken⟩
    exact ⟨v.convention, broken.visited, v.finding, ((finds_findings broken.visited).2 _).2 broken,
      rfl⟩

theorem violationsOf_nodup (visitable : s ∈ r.compilation.visitableSymbols) :
    (r.violationsOf s).Nodup := by
  rw [violationsOf, List.nodup_flatMap]
  constructor
  · intro k member
    have visited := (mem_declaredSymbols_iff visitable).2
      (of_decide_eq_true (List.mem_filter.1 member).2)
    exact (finds_findings visited).1.map fun a b same => (Violation.mk.inj same).2.2
  · have conventions : Convention.all.Nodup := by decide
    refine (conventions.filter _).imp ?_
    intro a b distinct v ina inb
    obtain ⟨_, -, rfl⟩ := List.mem_map.1 ina
    obtain ⟨_, -, same⟩ := List.mem_map.1 inb
    exact distinct (Violation.mk.inj same).1.symm

/-- The violations that visits of all symbols come upon are those of the type graph. -/
theorem mem_violationsIn (all : order.Perm r.compilation.visitableSymbols) {v : Violation} :
    v ∈ r.violationsIn order ↔ r.Violates v.symbol v.finding v.convention := by
  rw [violationsIn, List.mem_flatMap]
  constructor
  · rintro ⟨s, member, found⟩
    obtain ⟨rfl, broken⟩ := (mem_violationsOf (all.mem_iff.1 member)).1 found
    exact broken
  · intro broken
    have visitable := Compilation.mem_visitableSymbols.2 ⟨_, broken.visited⟩
    exact ⟨v.symbol, all.mem_iff.2 visitable, (mem_violationsOf visitable).2 ⟨rfl, broken⟩⟩

/-- No violation is come upon twice. -/
theorem violationsIn_nodup (all : order.Perm r.compilation.visitableSymbols) :
    (r.violationsIn order).Nodup := by
  rw [violationsIn, List.nodup_flatMap]
  refine ⟨fun s member => violationsOf_nodup (all.mem_iff.1 member), ?_⟩
  have distinct : order.Nodup := all.nodup_iff.2 (Compilation.visitableSymbols_nodup _)
  refine (List.Pairwise.and_mem.1 distinct).imp ?_
  rintro a b ⟨ina, inb, different⟩ v found_a found_b
  have here := ((mem_violationsOf (all.mem_iff.1 ina)).1 found_a).1
  have there := ((mem_violationsOf (all.mem_iff.1 inb)).1 found_b).1
  exact different (here.symm.trans there)

end Resolver

namespace RuleSet

variable (severity : Convention → Option Severity) (reports : Bool) {c : Compilation}
  (markers : MarkerSet) {s : SymbolRef}

theorem triggeredBy_select (kind : VisitKind) :
    (select severity reports).triggeredBy kind =
      (Convention.all.filter (·.rule.trigger = kind)).filterMap fun k =>
        (severity k).map (⟨k.rule, ·⟩) := by
  rw [triggeredBy, select, List.filter_filterMap, List.filterMap_filter]
  congr 1
  funext k
  cases severity k with
  | none => simp
  | some level => by_cases h : k.rule.trigger = kind <;> simp [Option.filter, h]

theorem evaluate_select {k : Convention} {level : Severity}
    (visited : s ∈ c.declaredSymbols k.rule.trigger) :
    (select severity reports).evaluate (Context.of c markers) s ⟨k.rule, level⟩ =
      ⟨(Resolver.findings ⟨c, markers⟩ k s).filterMap (·.diagnostic? (k.descriptorAt level)),
        []⟩ := by
  rw [evaluate, Resolver.evaluate_eq_findings (r := ⟨c, markers⟩) visited]
  rfl

/-- What the selected conventions among the given ones make of a symbol. -/
theorem evaluations_select {kinds : List Convention}
    (visited : ∀ k ∈ kinds, s ∈ c.declaredSymbols k.rule.trigger) :
    ((kinds.filterMap fun k => (severity k).map (RegisteredRule.mk k.rule)).map
        ((select severity reports).evaluate (Context.of c markers) s)).foldr (· ++ ·) .empty =
      ⟨(kinds.flatMap fun k => (Resolver.findings ⟨c, markers⟩ k s).map
        (Violation.mk k s)).filterMap (·.diagnostic? severity), []⟩ := by
  induction kinds with
  | nil => rfl
  | cons k kinds ih =>
    have later := ih fun other member => visited other (List.mem_cons_of_mem _ member)
    rw [List.flatMap_cons, List.filterMap_append, List.filterMap_map, List.filterMap_cons]
    cases selected : severity k with
    | none =>
      have unreported (f : Finding) : Violation.diagnostic? severity ⟨k, s, f⟩ = none := by
        simp [Violation.diagnostic?, selected]
      simpa [unreported, Function.comp_def] using later
    | some level =>
      have reported : (Violation.diagnostic? severity ∘ Violation.mk k s) =
          fun f => f.diagnostic? (k.descriptorAt level) := by
        funext f
        simp [Violation.diagnostic?, selected]
      rw [Option.map_some, List.map_cons, List.foldr_cons, later, reported,
        evaluate_select severity reports markers (visited k (by simp))]
      rfl

theorem visit_select (visitable : s ∈ c.visitableSymbols) :
    (select severity reports).visit (Context.of c markers) s =
      ⟨(Resolver.violationsOf ⟨c, markers⟩ s).filterMap (·.diagnostic? severity), []⟩ := by
  obtain ⟨kind, declared⟩ := Compilation.mem_visitableSymbols.1 visitable
  have shown := Compilation.visitKind_of_mem declared
  have triggers : (Convention.all.filter fun k => c.visitKind s = some k.rule.trigger) =
      Convention.all.filter (·.rule.trigger = kind) := by
    simp [shown, eq_comm]
  rw [visit, Context.compilation_of, shown]
  simp only [triggeredBy_select, Resolver.violationsOf, triggers]
  refine evaluations_select severity reports markers fun k member => ?_
  obtain ⟨-, triggered⟩ := List.mem_filter.1 member
  exact of_decide_eq_true triggered ▸ declared

end RuleSet

namespace Compilation

variable {c : Compilation} {markers : MarkerSet} {order : List SymbolRef}

/-- What a pass with selected rules finds is what the violations make. -/
theorem foundIn_select (severity : Convention → Option Severity) (reports : Bool)
    (all : order.Perm c.visitableSymbols) :
    c.foundIn order (.select severity reports) markers =
      { Report.empty with
        diagnostics :=
          (Resolver.violationsIn ⟨c, markers⟩ order).filterMap (·.diagnostic? severity)
        fileCount := c.files.length
        typeCount := c.declaredTypes.length } := by
  have visits (s : SymbolRef) (member : s ∈ order) :=
    RuleSet.visit_select severity reports markers (all.mem_iff.1 member)
  have diagnostics : (order.flatMap fun s =>
        ((RuleSet.select severity reports).visit (Context.of c markers) s).diagnostics) =
      (Resolver.violationsIn ⟨c, markers⟩ order).filterMap (·.diagnostic? severity) := by
    rw [Resolver.violationsIn, List.filterMap_flatMap]
    exact List.flatMap_congr fun s member => by rw [visits s member]
  have faults : (order.flatMap fun s =>
      ((RuleSet.select severity reports).visit (Context.of c markers) s).faults) = [] :=
    List.flatMap_eq_nil_iff.2 fun s member => by rw [visits s member]
  rw [foundIn, diagnostics, faults]
  rfl

/-- A pass that is not cancelled reports exactly the violations of the selected conventions. -/
theorem analyze_reports_violations (c : Compilation) (markers : MarkerSet)
    (severity : Convention → Option Severity) (reports : Bool) :
    ∃ report, c.analyze (.select severity reports) markers false = .ok report ∧
      report.faults = [] ∧
      ∃ violations : List Violation, violations.Nodup ∧
        (∀ v, v ∈ violations ↔ Resolver.Violates ⟨c, markers⟩ v.symbol v.finding v.convention) ∧
        report.diagnostics.Perm (violations.filterMap (·.diagnostic? severity)) ∧
        (∀ (v : Violation) (d : Diagnostic), v.diagnostic? severity = some d →
          severity v.convention = some d.severity ∧ v.IsReportedAs d) ∧
        ∀ v : Violation, v.diagnostic? severity = none ↔ severity v.convention = none ∨
          ∀ location, v.finding.location = some location → location.isValid = false := by
  have visits := List.Perm.refl c.visitableSymbols
  refine ⟨_, analyzeIn_eq c _ _ _, ?_, Resolver.violationsIn ⟨c, markers⟩ c.visitableSymbols,
    Resolver.violationsIn_nodup visits, fun v => Resolver.mem_violationsIn visits, ?_,
    fun v d => Violation.isReportedAs_of_diagnostic?, fun v => Violation.diagnostic?_eq_none_iff⟩
  · rw [foundIn_select severity reports visits]
    simp [Report.sorted, Report.empty]
  · rw [foundIn_select severity reports visits]
    exact List.mergeSort_perm _ _

/-- A class that is a command and does not say so. -/
def placeOrder : Compilation := .ofTypes
  [⟨0, "PlaceOrder", none, .plainClass, [], some ⟨"Command", some 1, []⟩, [], [],
    some ⟨⟨"a.cs"⟩, 1, 7⟩, [], none⟩,
   ⟨1, "Command", some "Slalom.Stacks.Messaging", .external, [], none, [], [], none, [], none⟩]
  [⟨"a.cs"⟩]

theorem analyze_reports_violations_placeOrder :
    ∃ report, placeOrder.analyze (.select (fun _ => some .error) false)
        MarkerIdentities.standard.markerSet false = .ok report ∧ report.faults = [] ∧
      report.diagnostics.map (·.render)
        = ["a.cs:1:7 SS001 [error] The type name 'PlaceOrder' should end in 'Command'"] ∧
      ∃ s f, Resolver.Violates ⟨placeOrder, MarkerIdentities.standard.markerSet⟩ s f
        .commandNaming := by
  obtain ⟨report, ran, faults, violations, -, broken, reported, described, -⟩ :=
    analyze_reports_violations placeOrder MarkerIdentities.standard.markerSet
      (fun _ => some .error) false
  have shown : (placeOrder.analyze (.select (fun _ => some .error) false)
      MarkerIdentities.standard.markerSet false).map (·.diagnostics.map fun d => (d.render, d.code))
      = .ok [("a.cs:1:7 SS001 [error] The type name 'PlaceOrder' should end in 'Command'",
        "SS001")] := by
    decide +kernel
  rw [ran] at shown
  obtain ⟨d, alone, same⟩ := List.map_eq_singleton_iff.1 (Except.ok.inj shown)
  obtain ⟨v, among, raised⟩ := List.mem_filterMap.1
    (reported.mem_iff.1 (alone ▸ List.mem_singleton_self d))
  have code : v.convention.code = "SS001" :=
    (described v d raised).2.code.symm.trans (congrArg Prod.snd same)
  have naming : v.convention = .commandNaming := by
    cases named : v.convention <;> simp [named, Convention.code] at code ⊢
  refine ⟨report, ran, faults, ?_, v.symbol, v.finding, naming ▸ (broken v).1 among⟩
  rw [alone, List.map_singleton]
  exact congrArg (fun shown => [shown]) (congrArg Prod.fst same)

end Compilation

end ConventionLint
