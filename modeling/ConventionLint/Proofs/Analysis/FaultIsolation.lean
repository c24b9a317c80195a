import ConventionLint.Proofs.Analysis.Visit
import ConventionLint.Proofs.Report.Order

/-!
# Rules that fail

Nothing is known here of the rules but what they evaluate to. A rule that fails on a symbol is
recorded once, may be shown once, and leaves everything else in the report as it would be had the
rule found nothing there.
-/
namespace ConventionLint

/-- The rule that finds nothing where this one fails. -/
def Rule.quieted (rule : Rule) : Rule :=
  { rule with
    evaluate := fun context symbol => .ok ((rule.evaluate context symbol).toOption.getD []) }

def RegisteredRule.quieted (r : RegisteredRule) : RegisteredRule :=
  ⟨r.rule.quieted, r.severity⟩

structure Trial where
  symbol : SymbolRef
  rule : RegisteredRule

namespace Trial

def quieted (t : Trial) : Trial :=
  ⟨t.symbol, t.rule.quieted⟩

variable (context : Context) (t : Trial)

def symbolName : String :=
  (context.compilation.symbolName t.symbol).getD "<unknown>"

/-- The diagnostics of what the rule finds, which is nothing when it fails. -/
def reported : List Diagnostic :=
  ((t.rule.rule.evaluate context t.symbol).toOption.getD []).filterMap
    (·.diagnostic? t.rule.descriptor)

def fault? : Option RuleFault :=
  match t.rule.rule.evaluate context t.symbol with
  | .ok _ => none
  | .error fault => some fault

def record? : Option EvaluationFault :=
  (t.fault? context).map fun fault =>
    ⟨t.rule.rule.descriptor.code, t.symbolName context, fault.message⟩

def internalError? : Option Diagnostic :=
  (t.fault? context).bind fun _ =>
    ((context.compilation.symbolLocation t.symbol).filter (·.isValid)).map fun location =>
      .raise internalError (t.symbolName context) (t.symbolName context) location []

end Trial

namespace RuleSet

def quieted (rules : RuleSet) : RuleSet :=
  ⟨rules.rules.map (·.quieted), rules.reportsInternalErrors⟩

/-- All trials of an analysis: every declared type, property and field with every rule for its
kind. -/
def trials (rules : RuleSet) (c : Compilation) : List Trial :=
  [VisitKind.type, .property, .field].flatMap fun kind =>
    (c.declaredSymbols kind).flatMap fun symbol => (rules.triggeredBy kind).map (⟨symbol, ·⟩)

variable {rules : RuleSet} {c : Compilation} {markers : MarkerSet} {context : Context}

theorem triggeredBy_quieted (kind : VisitKind) :
    rules.quieted.triggeredBy kind = (rules.triggeredBy kind).map (·.quieted) := by
  rw [triggeredBy, triggeredBy, quieted, List.filter_map]
  rfl

theorem trials_quieted : rules.quieted.trials c = (rules.trials c).map (·.quieted) := by
  simp only [trials, triggeredBy_quieted, List.map_flatMap, List.map_map]
  rfl

theorem faults_evaluate (t : Trial) :
    (rules.evaluate context t.symbol t.rule).faults = (t.record? context).toList := by
  simp only [evaluate, Trial.record?, Trial.fault?]
  cases t.rule.rule.evaluate context t.symbol <;> rfl

/-- What is found, and what may stand for a failure: one of the two is empty. -/
theorem diagnostics_evaluate (t : Trial) :
    (rules.evaluate context t.symbol t.rule).diagnostics = t.reported context ++
      if rules.reportsInternalErrors then (t.internalError? context).toList else [] := by
  simp only [evaluate, Trial.reported, Trial.internalError?, Trial.fault?]
  cases t.rule.rule.evaluate context t.symbol with
  | ok findings => simp [Except.toOption]
  | error fault => rfl

theorem code_of_mem_reported {t : Trial} {d : Diagnostic} (member : d ∈ t.reported context) :
    d.code = t.rule.rule.descriptor.code := by
  obtain ⟨f, -, raised⟩ := List.mem_filterMap.1 member
  obtain ⟨location, -, rfl⟩ := Option.map_eq_some_iff.1 raised
  rfl

theorem code_of_internalError? {t : Trial} {d : Diagnostic}
    (shown : t.internalError? context = some d) : d.code = internalError.code := by
  obtain ⟨fault, -, raised⟩ := Option.bind_eq_some_iff.1 shown
  obtain ⟨location, -, rfl⟩ := Option.map_eq_some_iff.1 raised
  rfl

/-- A rule with a code of its own: the code of a diagnostic tells which of the two it is. -/
theorem filter_diagnostics_evaluate {t : Trial}
    (other : t.rule.rule.descriptor.code ≠ internalError.code) :
    ((rules.evaluate context t.symbol t.rule).diagnostics.filter
        (·.code ≠ internalError.code) = t.reported context) ∧
    ((rules.evaluate context t.symbol t.rule).diagnostics.filter (·.code = internalError.code) =
        if rules.reportsInternalErrors then (t.internalError? context).toList else []) := by
  have found (d) (member : d ∈ t.reported context) : d.code ≠ internalError.code :=
    code_of_mem_reported member ▸ other
  have stands (d) (member : d ∈ if rules.reportsInternalErrors then
      (t.internalError? context).toList else []) : d.code = internalError.code := by
    split at member
    · exact code_of_internalError? (Option.mem_toList.1 member)
    · cases member
  rw [diagnostics_evaluate, List.filter_append, List.filter_append]
  constructor
  · rw [List.filter_eq_self.2 fun d member => decide_eq_true (found d member),
      List.filter_eq_nil_iff.2 fun d member => by simpa using stands d member, List.append_nil]
  · rw [List.filter_eq_nil_iff.2 fun d member => by simpa using found d member,
      List.filter_eq_self.2 fun d member => decide_eq_true (stands d member), List.nil_append]

theorem visit_eq {kind : VisitKind} {symbol : SymbolRef}
    (declared : symbol ∈ c.declaredSymbols kind) :
    rules.visit (Context.of c markers) symbol =
      (((rules.triggeredBy kind).map (Trial.mk symbol)).map fun t =>
        rules.evaluate (Context.of c markers) t.symbol t.rule).foldr (· ++ ·) .empty := by
  rw [visit, Context.compilation_of, Compilation.visitKind_of_mem declared, List.map_map]
  rfl

/-- What visits yield is what trials yield, whichever part of it is looked at. -/
theorem flatMap_visit {α : Type} {part : Evaluation → List α}
    (parts : ∀ evaluations : List Evaluation,
      part (evaluations.foldr (· ++ ·) .empty) = evaluations.flatMap part) :
    (c.visitableSymbols.flatMap fun s => part (rules.visit (Context.of c markers) s)) =
      (rules.trials c).flatMap fun t =>
        part (rules.evaluate (Context.of c markers) t.symbol t.rule) := by
  have kinds : c.visitableSymbols =
      [VisitKind.type, .property, .field].flatMap c.declaredSymbols := by
    simp [Compilation.visitableSymbols]
  rw [kinds, trials, List.flatMap_assoc, List.flatMap_assoc]
  refine List.flatMap_congr fun kind _ => ?_
  rw [List.flatMap_assoc]
  refine List.flatMap_congr fun symbol declared => ?_
  rw [visit_eq declared, parts, List.flatMap_map]

theorem diagnostics_foundIn :
    (c.foundIn c.visitableSymbols rules markers).diagnostics =
      (rules.trials c).flatMap fun t =>
        (rules.evaluate (Context.of c markers) t.symbol t.rule).diagnostics :=
  flatMap_visit fun evaluations => congrArg _ (Evaluation.foldr_append evaluations)

theorem faults_foundIn :
    (c.foundIn c.visitableSymbols rules markers).faults =
      (rules.trials c).filterMap (·.record? (Context.of c markers)) := by
  refine (flatMap_visit fun evaluations =>
    congrArg _ (Evaluation.foldr_append evaluations)).trans ?_
  simp only [faults_evaluate, List.filterMap_eq_flatMap_toList]

theorem rule_of_mem_trials {t : Trial} (member : t ∈ rules.trials c) : t.rule ∈ rules.rules := by
  simp only [trials, List.mem_flatMap, List.mem_map] at member
  obtain ⟨kind, -, symbol, -, r, triggered, rfl⟩ := member
  exact (List.mem_filter.1 triggered).1

section

variable (apart : ∀ r ∈ rules.rules, r.rule.descriptor.code ≠ internalError.code)
include apart

theorem filter_diagnostics_foundIn :
    (c.foundIn c.visitableSymbols rules markers).diagnostics.filter
        (·.code ≠ internalError.code) =
      (c.foundIn c.visitableSymbols rules.quieted markers).diagnostics := by
  rw [diagnostics_foundIn, diagnostics_foundIn, trials_quieted, List.flatMap_map,
    List.filter_flatMap]
  exact List.flatMap_congr fun t member =>
    (filter_diagnostics_evaluate (apart t.rule (rule_of_mem_trials member))).1

theorem filter_internalErrors_foundIn :
    (c.foundIn c.visitableSymbols rules markers).diagnostics.filter
        (·.code = internalError.code) =
      if rules.reportsInternalErrors then
        (rules.trials c).filterMap (·.internalError? (Context.of c markers)) else [] := by
  have each : (c.foundIn c.visitableSymbols rules markers).diagnostics.filter
      (·.code = internalError.code) = (rules.trials c).flatMap fun t =>
        if rules.reportsInternalErrors then (t.internalError? (Context.of c markers)).toList
        else [] := by
    rw [diagnostics_foundIn, List.filter_flatMap]
    exact List.flatMap_congr fun t member =>
      (filter_diagnostics_evaluate (apart t.rule (rule_of_mem_trials member))).2
  rw [each]
  split
  · rw [List.filterMap_eq_flatMap_toList]
  · simp

end

theorem faults_foundIn_quieted :
    (c.foundIn c.visitableSymbols rules.quieted markers).faults = [] := by
  rw [faults_foundIn, trials_quieted, List.filterMap_map]
  exact List.filterMap_eq_nil_iff.2 fun t _ => rfl

end RuleSet

namespace Compilation

/-- Only a cancelled analysis fails, if it has a symbol to visit at all. -/
theorem analyze_eq_error_iff (c : Compilation) (rules : RuleSet) (markers : MarkerSet)
    (cancelled : Bool) (e : LintError) :
    c.analyze rules markers cancelled = .error e ↔
      cancelled = true ∧ c.visitableSymbols ≠ [] ∧ e = .cancelled := by
  rw [analyze]
  cases cancelled with
  | false =>
    rw [analyzeIn_eq]
    exact ⟨nofun, nofun⟩
  | true =>
    cases c.visitableSymbols with
    | nil => exact ⟨nofun, fun ⟨_, visited, _⟩ => absurd rfl visited⟩
    | cons s symbols =>
      have stopped : c.analyzeIn (s :: symbols) rules markers true = .error .cancelled := by
        rw [analyzeIn, List.mapM_cons]
        rfl
      rw [stopped, Except.error.injEq]
      exact ⟨fun same => ⟨rfl, List.cons_ne_nil _ _, same.symm⟩, fun known => known.2.2.symm⟩

/-- Every failure of a rule on a symbol is recorded once. It is shown once if failures are reported
and the symbol stands somewhere. All other diagnostics are those of an analysis in which failing
rules find nothing. -/
theorem analyze_isolates_failures (c : Compilation) (rules : RuleSet) (markers : MarkerSet)
    (apart : ∀ r ∈ rules.rules, r.rule.descriptor.code ≠ internalError.code) :
    (∀ cancelled e, c.analyze rules markers cancelled = .error e ↔
      cancelled = true ∧ c.visitableSymbols ≠ [] ∧ e = .cancelled) ∧
    ∃ report quiet, c.analyze rules markers false = .ok report ∧
      c.analyze rules.quieted markers false = .ok quiet ∧ quiet.faults = [] ∧
      report.faults.Perm ((rules.trials c).filterMap (·.record? (Context.of c markers))) ∧
      report.diagnostics.filter (·.code ≠ internalError.code) = quiet.diagnostics ∧
      (report.diagnostics.filter (·.code = internalError.code)).Perm
        (if rules.reportsInternalErrors then
          (rules.trials c).filterMap (·.internalError? (Context.of c markers)) else []) := by
  have trans (a b d : Diagnostic) (first : a.le b = true) (second : b.le d = true) :
      a.le d = true := Diagnostic.le_trans first second
  have sorted_filter (p : Diagnostic → Bool) (ds : List Diagnostic) :
      (ds.mergeSort Diagnostic.le).filter p = (ds.filter p).mergeSort Diagnostic.le :=
    (mergeSort_filter trans Diagnostic.le_total p ds).symm
  refine ⟨c.analyze_eq_error_iff rules markers, _, _, c.analyzeIn_eq _ rules markers,
    c.analyzeIn_eq _ rules.quieted markers, ?_, ?_, ?_, ?_⟩
  · rw [Report.sorted, RuleSet.faults_foundIn_quieted, List.mergeSort_nil]
  · rw [Report.sorted, RuleSet.faults_foundIn]
    exact List.mergeSort_perm _ _
  · rw [Report.sorted, Report.sorted, sorted_filter, RuleSet.filter_diagnostics_foundIn apart]
  · rw [Report.sorted, sorted_filter, RuleSet.filter_internalErrors_foundIn apart]
    exact List.mergeSort_perm _ _

end Compilation

namespace Rule

def exploding : Rule where
  descriptor := { internalError with code := "SS990" }
  trigger := .type
  evaluate _ _ := .error (.panicked "evaluation exploded")
  consults _ _ := false

def findingAll : Rule where
  descriptor := { internalError with code := "SS993" }
  trigger := .type
  evaluate context symbol := (context.typeSymbol symbol).map fun t => [.named t.name t.location []]
  consults _ _ := false

end Rule

def RuleSet.explosive : RuleSet :=
  ⟨[.standard .exploding, .standard .findingAll], true⟩

namespace Compilation

def classAt (name : String) (location : Option Location) : TypeSymbol :=
  ⟨0, name, none, .plainClass, [], none, [], [], location, [], none⟩

def keptAndLost : Compilation :=
  ofTypes [classAt "Kept" (some ⟨⟨"a.cs"⟩, 1, 1⟩), classAt "Lost" none] []

/-- What one rule finds stays where the other fails. -/
theorem analyze_isolates_failures_explosive :
    (∀ r ∈ RuleSet.explosive.rules, r.rule.descriptor.code ≠ internalError.code) ∧
    ∃ report quiet,
      keptAndLost.analyze .explosive MarkerIdentities.standard.markerSet false = .ok report ∧
      keptAndLost.analyze RuleSet.explosive.quieted MarkerIdentities.standard.markerSet false =
        .ok quiet ∧
      report.faults.Perm
        [⟨"SS990", "Kept", "rule evaluation panicked: evaluation exploded"⟩,
          ⟨"SS990", "Lost", "rule evaluation panicked: evaluation exploded"⟩] ∧
      report.diagnostics.filter (·.code ≠ internalError.code) = quiet.diagnostics ∧
      quiet.diagnostics =
        [.raise Rule.findingAll.descriptor "Kept" "Kept" ⟨⟨"a.cs"⟩, 1, 1⟩ []] ∧
      (report.diagnostics.filter (·.code = internalError.code)).Perm
        [.raise internalError "Kept" "Kept" ⟨⟨"a.cs"⟩, 1, 1⟩ []] := by
  have apart : ∀ r ∈ RuleSet.explosive.rules, r.rule.descriptor.code ≠ internalError.code := by
    simp [RuleSet.explosive, RegisteredRule.standard, Rule.exploding, Rule.findingAll,
      internalError]
  obtain ⟨-, report, quiet, run, quietly, -, faults, others, shown⟩ :=
    analyze_isolates_failures keptAndLost .explosive MarkerIdentities.standard.markerSet apart
  have found : (keptAndLost.analyze RuleSet.explosive.quieted MarkerIdentities.standard.markerSet
      false).map (·.diagnostics)
      = .ok [.raise Rule.findingAll.descriptor "Kept" "Kept" ⟨⟨"a.cs"⟩, 1, 1⟩ []] := by
    decide +kernel
  rw [quietly] at found
  exact ⟨apart, report, quiet, run, quietly, faults, others, Except.ok.inj found, shown⟩

end Compilation

end ConventionLint
