import ConventionLint.Error
import ConventionLint.Report.Basic
import ConventionLint.Rule.Standard

/-!
# Analysis

Every symbol of a compilation is visited once, and every rule that its kind triggers is evaluated on
it. A rule that fails costs its own findings on that symbol and nothing else.
-/
namespace ConventionLint

/-- What visiting a symbol yields. -/
structure Evaluation where
  diagnostics : List Diagnostic
  faults : List EvaluationFault
deriving DecidableEq, Repr

namespace Evaluation

def empty : Evaluation := ⟨[], []⟩

def append (a b : Evaluation) : Evaluation :=
  ⟨a.diagnostics ++ b.diagnostics, a.faults ++ b.faults⟩

instance : Append Evaluation := ⟨append⟩

end Evaluation

namespace Finding

/-- The diagnostic of a finding at a valid location. -/
def diagnostic? (descriptor : Descriptor) (f : Finding) : Option Diagnostic :=
  (f.location.filter (·.isValid)).map fun location =>
    .raise descriptor f.symbol f.argument location f.fixes

end Finding

namespace RuleSet

/-- The diagnostic in place of a failed rule, when such are reported and the symbol has a valid
location. -/
def internalErrorAt (rules : RuleSet) (name : String) (location : Option Location) :
    List Diagnostic :=
  if rules.reportsInternalErrors then
    ((location.filter (·.isValid)).map fun location =>
      Diagnostic.raise internalError name name location []).toList
  else []

/-- What one rule makes of a symbol. -/
def evaluate (rules : RuleSet) (context : Context) (symbol : SymbolRef) (rule : RegisteredRule) :
    Evaluation :=
  let name := (context.compilation.symbolName symbol).getD "<unknown>"
  match rule.rule.evaluate context symbol with
  | .ok findings => ⟨findings.filterMap (·.diagnostic? rule.descriptor), []⟩
  | .error fault =>
    ⟨rules.internalErrorAt name (context.compilation.symbolLocation symbol),
      [⟨rule.rule.descriptor.code, name, fault.message⟩]⟩

/-- What all rules make of a symbol. A symbol that is not there triggers none. -/
def visit (rules : RuleSet) (context : Context) (symbol : SymbolRef) : Evaluation :=
  match context.compilation.visitKind symbol with
  | none => .empty
  | some kind =>
    ((rules.triggeredBy kind).map (rules.evaluate context symbol)).foldr (· ++ ·) .empty

/-- Visits a symbol unless the analysis was cancelled. -/
def visitUnless (cancelled : Bool) (rules : RuleSet) (context : Context) (symbol : SymbolRef) :
    Except LintError Evaluation :=
  if cancelled then .error .cancelled else .ok (rules.visit context symbol)

/-- Whether visiting a symbol takes a look at the index of the compilation. -/
def consultsIndex (rules : RuleSet) (context : Context) (symbol : SymbolRef) : Bool :=
  match context.compilation.visitKind symbol with
  | none => false
  | some kind => (rules.triggeredBy kind).any (·.rule.consults context symbol)

end RuleSet

/-- The sorted report on a compilation whose symbols are visited in the given order. -/
def Compilation.analyzeIn (c : Compilation) (order : List SymbolRef) (rules : RuleSet)
    (markers : MarkerSet) (cancelled : Bool) : Except LintError Report := do
  let context := Context.of c markers
  let evaluations ← order.mapM (rules.visitUnless cancelled context)
  let found := evaluations.foldr (· ++ ·) Evaluation.empty
  return Report.sorted
    { Report.empty with
      diagnostics := found.diagnostics
      faults := found.faults
      fileCount := c.files.length
      typeCount := c.declaredTypes.length }

/-- The sorted report on a compilation. -/
def Compilation.analyze (c : Compilation) (rules : RuleSet) (markers : MarkerSet)
    (cancelled : Bool) : Except LintError Report :=
  c.analyzeIn c.visitableSymbols rules markers cancelled

end ConventionLint
