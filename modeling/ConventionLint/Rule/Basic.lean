import ConventionLint.Diagnostic
import ConventionLint.Taxonomy.Index

/-!
# Rules

A rule looks at one symbol of one kind and finds violations, or fails. It never reports: what
becomes of its findings is the engine's business.
-/
namespace ConventionLint

namespace SymbolRef

/-- The form in which a symbol appears in fault messages. -/
def trace : SymbolRef → String
  | .type id => "Type(TypeId(" ++ id.repr ++ "))"
  | .member owner index =>
    "Member \x7b owner: TypeId(" ++ owner.repr ++ "), index: " ++ index.repr ++ " \x7d"

end SymbolRef

def VisitKind.trace : VisitKind → String
  | .type => "Type"
  | .property => "Property"
  | .field => "Field"

/-- Why a rule failed on a symbol. -/
inductive RuleFault where
  | missingSymbol (symbol : SymbolRef)
  | unexpectedSymbol (expected : VisitKind) (symbol : SymbolRef)
  | panicked (message : String)
deriving DecidableEq, Repr

def RuleFault.message : RuleFault → String
  | .missingSymbol symbol => "symbol " ++ symbol.trace ++ " is not part of the compilation"
  | .unexpectedSymbol expected symbol =>
    "expected a " ++ expected.trace ++ " symbol, got " ++ symbol.trace
  | .panicked message => "rule evaluation panicked: " ++ message

/-- A violation before it becomes a diagnostic. One without a location is never reported. -/
structure Finding where
  symbol : String
  argument : String
  location : Option Location
  fixes : List Fix
deriving DecidableEq, Repr

/-- A finding whose message names the symbol itself. -/
def Finding.named (symbol : String) (location : Option Location) (fixes : List Fix) : Finding :=
  ⟨symbol, symbol, location, fixes⟩

namespace Context

def typeSymbol (c : Context) : SymbolRef → Except RuleFault TypeSymbol
  | .type id =>
    match c.compilation.get? id with
    | some t => .ok t
    | none => .error (.missingSymbol (.type id))
  | .member owner index => .error (.unexpectedSymbol .type (.member owner index))

def memberSymbol (c : Context) : SymbolRef → Except RuleFault (TypeSymbol × MemberSymbol)
  | .member owner index =>
    match c.compilation.get? owner with
    | none => .error (.missingSymbol (.member owner index))
    | some t =>
      match t.members[index]? with
      | some m => .ok (t, m)
      | none => .error (.missingSymbol (.member owner index))
  | .type id => .error (.unexpectedSymbol .property (.type id))

end Context

structure Rule where
  descriptor : Descriptor
  /-- The kind of symbol the rule is evaluated on. -/
  trigger : VisitKind
  evaluate : Context → SymbolRef → Except RuleFault (List Finding)
  /-- Whether evaluating a symbol takes a look at the index of the compilation. -/
  consults : Context → SymbolRef → Bool

end ConventionLint
