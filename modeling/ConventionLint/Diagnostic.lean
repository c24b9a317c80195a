import ConventionLint.Source.Position

/-!
# Diagnostics

A violation of a convention: what is wrong, where, with which symbol, and which changes would mend
it.
-/
namespace ConventionLint

inductive Severity where
  | warning
  | error
deriving DecidableEq, Repr

namespace Severity

def text : Severity → String
  | .warning => "warning"
  | .error => "error"

/-- Whether a diagnostic of this severity fails a check. -/
def isBlocking : Severity → Bool
  | .warning => false
  | .error => true

/-- Whether a severity is at least another. -/
def atLeast : Severity → Severity → Bool
  | _, .warning => true
  | s, .error => s = .error

def ofText? (text : String) : Option Severity :=
  [Severity.warning, .error].find? (·.text = text)

end Severity

inductive Category where
  | naming
  | messaging
  | rules
  | analyzer
deriving DecidableEq, Repr

namespace Category

def text : Category → String
  | .naming => "Naming"
  | .messaging => "Messaging"
  | .rules => "Rules"
  | .analyzer => "Analyzer"

def all : List Category :=
  [.naming, .messaging, .rules, .analyzer]

end Category

/-- Puts a text wherever a template has `{0}`. -/
def fillTemplate (argument : List Char) : List Char → List Char
  | '\x7b' :: '0' :: '\x7d' :: rest => argument ++ fillTemplate argument rest
  | c :: rest => c :: fillTemplate argument rest
  | [] => []

/-- What is known of a diagnostic before it is raised. -/
structure Descriptor where
  code : String
  title : String
  /-- The message, with `{0}` for the symbol. -/
  template : String
  category : Category
  severity : Severity
  description : String
deriving DecidableEq, Repr

def Descriptor.message (d : Descriptor) (argument : String) : String :=
  String.ofList (fillTemplate argument.toList d.template.toList)

/-- A change that an editor may offer. -/
inductive Fix where
  | appendSuffix (suffix : String)
  | removeSetter
  | demoteSetter
  | synthesizeBusinessRule (command : String) (qualifier : Option String)
deriving DecidableEq, Repr

namespace Fix

def title : Fix → String
  | .appendSuffix suffix => "Append '" ++ suffix ++ "'"
  | .removeSetter => "Remove setter"
  | .demoteSetter => "Make setter private"
  | .synthesizeBusinessRule _ _ => "Create business rule"

def tag : Fix → String
  | .appendSuffix _ => "append_suffix"
  | .removeSetter => "remove_setter"
  | .demoteSetter => "demote_setter"
  | .synthesizeBusinessRule _ _ => "synthesize_business_rule"

end Fix

structure Diagnostic where
  descriptor : Descriptor
  message : String
  location : Location
  symbol : String
  fixes : List Fix
deriving DecidableEq, Repr

namespace Diagnostic

def raise (descriptor : Descriptor) (symbol argument : String) (location : Location)
    (fixes : List Fix) : Diagnostic :=
  ⟨descriptor, descriptor.message argument, location, symbol, fixes⟩

def code (d : Diagnostic) : String :=
  d.descriptor.code

def severity (d : Diagnostic) : Severity :=
  d.descriptor.severity

def isBlocking (d : Diagnostic) : Bool :=
  d.severity.isBlocking

def render (d : Diagnostic) : String :=
  d.location.render ++ " " ++ d.code ++ " [" ++ d.severity.text ++ "] " ++ d.message

/-- Reports list diagnostics by location, code and message. -/
protected def compare (a b : Diagnostic) : Ordering :=
  (compare a.location b.location).then ((compare a.code b.code).then (compare a.message b.message))

def le (a b : Diagnostic) : Bool :=
  (a.compare b).isLE

end Diagnostic

/-- A rule that failed on a symbol, in place of the diagnostics it might have raised. -/
structure EvaluationFault where
  code : String
  symbol : String
  message : String
deriving DecidableEq, Repr

namespace EvaluationFault

protected def compare (a b : EvaluationFault) : Ordering :=
  (compare a.symbol b.symbol).then ((compare a.code b.code).then (compare a.message b.message))

def le (a b : EvaluationFault) : Bool :=
  (a.compare b).isLE

end EvaluationFault

end ConventionLint
