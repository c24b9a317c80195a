import ConventionLint.Symbol
import ConventionLint.Text.Dotted

/-!
# Markers

The framework types that conventions are keyed on, given by their qualified names. A type whose
qualified name is known is a marker when the names agree. Otherwise the simple name has to agree
and the marker's namespace has to be imported, unless identity is lenient.
-/
namespace ConventionLint

inductive MarkerKind where
  | root
  | command
  | event
  | useCase
  | businessRule
deriving DecidableEq, Repr

namespace MarkerKind

/-- All kinds, in the order in which they are tried. -/
def all : List MarkerKind :=
  [.root, .command, .event, .useCase, .businessRule]

def text : MarkerKind → String
  | .root => "root"
  | .command => "command"
  | .event => "event"
  | .useCase => "use_case"
  | .businessRule => "business_rule"

end MarkerKind

/-- A qualified name with its parts. -/
structure Marker where
  identity : String
  qualifier : Option String
  name : String
deriving DecidableEq, Repr

def Marker.ofIdentity (identity : String) : Marker :=
  let (qualifier, name) := Text.splitName identity
  ⟨identity, qualifier, name⟩

structure MarkerSet where
  marker : MarkerKind → Marker
  /-- A type whose namespace is unknown is no marker by its simple name alone. -/
  strict : Bool

namespace MarkerSet

def isMarker (ms : MarkerSet) (t : TypeSymbol) (kind : MarkerKind) : Bool :=
  let marker := ms.marker kind
  if t.kind = .typeParameter || t.name ≠ marker.name then false
  else
    match t.qualifiedName with
    | some qualified => qualified = marker.identity
    | none => t.imports.any (some · = marker.qualifier) || !ms.strict

/-- The kind of marker a type is, if any. -/
def kindOf (ms : MarkerSet) (t : TypeSymbol) : Option MarkerKind :=
  MarkerKind.all.find? (ms.isMarker t)

end MarkerSet

end ConventionLint
