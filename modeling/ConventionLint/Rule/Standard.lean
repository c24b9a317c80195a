import ConventionLint.Rule.Basic

/-!
# The standard rules

Commands and events are recognised by the last word of their names. Every use case of a concrete
command has a business rule for that command somewhere, and a member that carries it out. Events,
and commands that some use case handles, do not change once they are created; events have no fields
of their own.

The catalog has all diagnostics there are, by code, and the rules that raise them. One code stands
for rules that failed; no rule raises it. A rule set gives the rules of an analysis severities.
-/
namespace ConventionLint.Rule

def commandNamingDescriptor : Descriptor where
  code := "SS001"
  title := "Commands should end in 'Command'"
  template := "The type name '{0}' should end in 'Command'"
  category := .naming
  severity := .warning
  description := "Types deriving directly from the command base should carry the 'Command' suffix "
    ++ "so that messages are recognizable at their use sites."

def eventNamingDescriptor : Descriptor where
  code := "SS002"
  title := "Events should end in 'Event'"
  template := "The type name '{0}' should end in 'Event'"
  category := .naming
  severity := .warning
  description := "Types deriving, directly or transitively, from the event base should carry the "
    ++ "'Event' suffix."

/-- A finding unless the type's name ends in the suffix. -/
def missingSuffix (t : TypeSymbol) (suffix : String) : List Finding :=
  if suffix.toList.isSuffixOf t.name.toList then []
  else [.named t.name t.location [.appendSuffix suffix]]

/-- Whether a reference is to a type of the compilation. -/
def isPresentType (c : Context) (symbol : SymbolRef) : Bool :=
  (c.typeSymbol symbol).toBool

/-- A type derived directly from the command marker is named a command. -/
def commandNaming : Rule where
  descriptor := commandNamingDescriptor
  trigger := .type
  evaluate c symbol :=
    (c.typeSymbol symbol).map fun t =>
      match c.taxonomy t.id with
      | .command true => missingSuffix t "Command"
      | _ => []
  consults := isPresentType

/-- A type derived from the event marker is named an event. -/
def eventNaming : Rule where
  descriptor := eventNamingDescriptor
  trigger := .type
  evaluate c symbol :=
    (c.typeSymbol symbol).map fun t =>
      match c.taxonomy t.id with
      | .event => missingSuffix t "Event"
      | _ => []
  consults := isPresentType

def missingBusinessRuleDescriptor : Descriptor where
  code := "SS301"
  title := "Use cases should have rules"
  template := "The use case '{0}' should have rules."
  category := .rules
  severity := .warning
  description := "A use case handling command T should be accompanied by at least one business "
    ++ "rule deriving from BusinessRule<T> somewhere in the compilation."

def missingImplementationDescriptor : Descriptor where
  code := "SS302"
  title := "Use cases should have an implementation"
  template := "The use case '{0}' should have an implementation."
  category := .rules
  severity := .error
  description := "A use case must declare an 'Execute' or 'ExecuteAsync' member."

/-- The command of a type that derives directly from the use case marker. -/
def handledCommand (c : Context) (t : TypeSymbol) : Option TypeId :=
  match c.taxonomy t.id with
  | .useCase command true => command
  | _ => none

/-- Whether a type has a member that carries out a use case. -/
def implementsUseCase (t : TypeSymbol) : Bool :=
  t.declaresMember "Execute" || t.declaresMember "ExecuteAsync"

/-- The command of a use case is the target of some business rule. -/
def missingBusinessRule : Rule where
  descriptor := missingBusinessRuleDescriptor
  trigger := .type
  evaluate c symbol := do
    let t ← c.typeSymbol symbol
    match handledCommand c t with
    | none => return []
    | some command =>
      if c.hasRuleFor command then return []
      else
        let handled ← c.typeSymbol (.type command)
        return [.named t.name t.location [.synthesizeBusinessRule handled.name t.qualifier]]
  consults := isPresentType

/-- A use case has an implementation. -/
def missingImplementation : Rule where
  descriptor := missingImplementationDescriptor
  trigger := .type
  evaluate c symbol :=
    (c.typeSymbol symbol).map fun t =>
      if (handledCommand c t).isSome && !implementsUseCase t then [.named t.name t.location []]
      else []
  consults := isPresentType

def mutablePropertyDescriptor : Descriptor where
  code := "SS101"
  title := "Message properties must be immutable"
  template := "The property '{0}' cannot be mutable."
  category := .messaging
  severity := .error
  description := "Events, and commands handled by a use case, are immutable once created. "
    ++ "Properties on them must not expose a public setter; 'init' accessors are allowed."

def messageFieldDescriptor : Descriptor where
  code := "SS102"
  title := "Message types cannot have fields"
  template := "The message type '{0}' cannot have fields."
  category := .messaging
  severity := .error
  description := "Event types expose their data through properties only. Compiler-generated "
    ++ "backing fields of auto-properties are not reported."

/-- Whether a type is an event or the command of a use case. -/
def isMessage (c : Context) (id : TypeId) : Bool :=
  c.taxonomy id = .event || c.isUseCaseCommand id

/-- A message has no property with a public setter. -/
def mutableProperty : Rule where
  descriptor := mutablePropertyDescriptor
  trigger := .property
  evaluate c symbol :=
    (c.memberSymbol symbol).map fun (owner, property) =>
      if property.hasPublicSetter && isMessage c owner.id then
        [.named property.name property.location [.removeSetter, .demoteSetter]]
      else []
  consults c symbol := (c.memberSymbol symbol).toOption.any fun (_, m) => m.hasPublicSetter

/-- An event has no field but the storage of its properties. The message names the event. -/
def messageField : Rule where
  descriptor := messageFieldDescriptor
  trigger := .field
  evaluate c symbol :=
    (c.memberSymbol symbol).map fun (owner, field) =>
      if !field.isBackingField && c.taxonomy owner.id = .event then
        [⟨field.name, owner.name, field.location, []⟩]
      else []
  consults c symbol := (c.memberSymbol symbol).toOption.any fun (_, m) => !m.isBackingField

end ConventionLint.Rule

namespace ConventionLint

/-- Raised in place of what a failed rule might have raised, when that is wanted. -/
def internalError : Descriptor where
  code := "SS900"
  title := "Convention analysis did not complete"
  template := "Convention analysis of '{0}' did not complete."
  category := .analyzer
  severity := .warning
  description := "A rule failed unexpectedly while evaluating this symbol. Its diagnostics, if "
    ++ "any, were suppressed. Other rules and symbols were still analyzed."

namespace Rule

/-- The rules, in the order in which they are evaluated. -/
def standard : List Rule :=
  [commandNaming, eventNaming, mutableProperty, messageField, missingBusinessRule,
   missingImplementation]

end Rule

namespace Descriptor

def catalog : List Descriptor :=
  Rule.standard.map (·.descriptor) ++ [internalError]

/-- Whether two texts differ in the case of ASCII letters only. -/
def sameCode (a b : String) : Bool :=
  a.toList.map Char.toLower = b.toList.map Char.toLower

/-- The descriptor of a code in any case. -/
def find? (code : String) : Option Descriptor :=
  catalog.find? (sameCode ·.code code)

end Descriptor

structure RegisteredRule where
  rule : Rule
  severity : Severity

namespace RegisteredRule

def standard (rule : Rule) : RegisteredRule :=
  ⟨rule, rule.descriptor.severity⟩

/-- The descriptor with the severity that counts. -/
def descriptor (r : RegisteredRule) : Descriptor :=
  { r.rule.descriptor with severity := r.severity }

end RegisteredRule

structure RuleSet where
  rules : List RegisteredRule
  /-- Whether a failed rule is reported as a diagnostic, too. -/
  reportsInternalErrors : Bool

namespace RuleSet

/-- All rules at their own severities. -/
def standard : RuleSet :=
  ⟨Rule.standard.map .standard, false⟩

def descriptors (s : RuleSet) : List Descriptor :=
  s.rules.map (·.descriptor) ++ if s.reportsInternalErrors then [internalError] else []

def triggeredBy (s : RuleSet) (kind : VisitKind) : List RegisteredRule :=
  s.rules.filter (·.rule.trigger = kind)

end RuleSet

end ConventionLint
