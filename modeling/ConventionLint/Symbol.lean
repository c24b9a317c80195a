import ConventionLint.Source.Declaration

/-!
# The type graph

Types are nodes, numbered by their place in the compilation; base types, interfaces and type
arguments are edges. A compilation is never changed once it is built.
-/
namespace ConventionLint

abbrev TypeId := Nat

inductive TypeKind where
  | plainClass
  | struct
  | interface
  | record
  /-- Referred to but not declared here. -/
  | external
  /-- A type parameter of a declaration. -/
  | typeParameter
deriving DecidableEq, Repr

namespace TypeKind

def text : TypeKind → String
  | .plainClass => "class"
  | .struct => "struct"
  | .interface => "interface"
  | .record => "record"
  | .external => "external"
  | .typeParameter => "type parameter"

def all : List TypeKind :=
  [.plainClass, .struct, .interface, .record, .external, .typeParameter]

def isDeclared : TypeKind → Bool
  | .plainClass | .struct | .interface | .record => true
  | .external | .typeParameter => false

end TypeKind

/-- A reference to a type with its arguments. Without a target it is unresolved. -/
structure TypeRef where
  name : String
  target : Option TypeId
  arguments : List TypeRef
deriving Repr

namespace TypeRef

mutual

def render : TypeRef → String
  | ⟨name, _, []⟩ => name
  | ⟨name, _, first :: rest⟩ => name ++ "<" ++ first.render ++ renderRest rest ++ ">"

def renderRest : List TypeRef → String
  | [] => ""
  | r :: rs => ", " ++ r.render ++ renderRest rs

end

end TypeRef

inductive MemberKind where
  | property (setter : Option Setter)
  | field
  | method
deriving DecidableEq, Repr

/-- What the engine visits. -/
inductive VisitKind where
  | type
  | property
  | field
deriving DecidableEq, Repr

structure MemberSymbol where
  name : String
  kind : MemberKind
  accessibility : Accessibility
  location : Option Location
  /-- Comes with another member and is not written. -/
  implicit : Bool
deriving DecidableEq, Repr

namespace MemberSymbol

/-- Whether a property can be changed by anybody at any time. -/
def hasPublicSetter (m : MemberSymbol) : Bool :=
  match m.kind with
  | .property (some setter) => !setter.initOnly && setter.accessibility = .publicAccess
  | _ => false

/-- Whether a field is the storage of an auto-implemented property. -/
def isBackingField (m : MemberSymbol) : Bool :=
  m.kind = .field && (m.implicit || "__BackingField".toList.isSuffixOf m.name.toList)

def visitKind (m : MemberSymbol) : Option VisitKind :=
  match m.kind with
  | .property _ => some .property
  | .field => some .field
  | .method => none

end MemberSymbol

structure TypeSymbol where
  id : TypeId
  name : String
  /-- The namespace or containing type; for an external type, the qualifier it was written with. -/
  qualifier : Option String
  kind : TypeKind
  typeParameters : List String
  base : Option TypeRef
  interfaces : List TypeRef
  members : List MemberSymbol
  location : Option Location
  /-- For an external type written without a qualifier, the namespaces imported there. -/
  imports : List String
  container : Option TypeId
deriving Repr

namespace TypeSymbol

/-- The qualified name, where it is known. -/
def qualifiedName (t : TypeSymbol) : Option String :=
  match t.kind, t.qualifier with
  | .typeParameter, _ => none
  | _, some qualifier => some (qualifier ++ "." ++ t.name)
  | .external, none => none
  | _, none => some t.name

def declaresMember (t : TypeSymbol) (name : String) : Bool :=
  t.members.any (·.name = name)

end TypeSymbol

/-- A type, or a member of a type by its place. -/
inductive SymbolRef where
  | type (id : TypeId)
  | member (owner : TypeId) (index : Nat)
deriving DecidableEq, Repr

structure Compilation where
  types : List TypeSymbol
  files : List Path
  numbered : ∀ i (h : i < types.length), types[i].id = i

namespace Compilation

/-- The compilation of the given types, which are numbered by their places. -/
def ofTypes (types : List TypeSymbol) (files : List Path) : Compilation where
  types := types.mapIdx fun i t => { t with id := i }
  files := files
  numbered := by simp

def get? (c : Compilation) (id : TypeId) : Option TypeSymbol :=
  c.types[id]?

theorem id_of_get? {c : Compilation} {id : TypeId} {t : TypeSymbol} (h : c.get? id = some t) :
    t.id = id := by
  obtain ⟨bound, rfl⟩ := List.getElem?_eq_some_iff.1 h
  exact c.numbered id bound

def declaredTypes (c : Compilation) : List TypeSymbol :=
  c.types.filter (·.kind.isDeclared)

def member? (c : Compilation) (owner : TypeId) (index : Nat) : Option MemberSymbol :=
  (c.get? owner).bind (·.members[index]?)

/-- The members of a type that are visited as the given kind. -/
def membersOfKind (t : TypeSymbol) (kind : VisitKind) : List SymbolRef :=
  (t.members.zipIdx.filter fun (m, _) => m.visitKind = some kind).map fun (_, i) => .member t.id i

/-- The declared symbols of a kind, in order. -/
def declaredSymbols (c : Compilation) (kind : VisitKind) : List SymbolRef :=
  match kind with
  | .type => c.declaredTypes.map (.type ·.id)
  | kind => c.declaredTypes.flatMap (membersOfKind · kind)

/-- What an analysis visits: types, then properties, then fields. -/
def visitableSymbols (c : Compilation) : List SymbolRef :=
  c.declaredSymbols .type ++ c.declaredSymbols .property ++ c.declaredSymbols .field

def visitKind (c : Compilation) : SymbolRef → Option VisitKind
  | .type id => (c.get? id).map fun _ => .type
  | .member owner index => (c.member? owner index).bind (·.visitKind)

def symbolName (c : Compilation) : SymbolRef → Option String
  | .type id => (c.get? id).map (·.name)
  | .member owner index => (c.member? owner index).map (·.name)

def symbolLocation (c : Compilation) : SymbolRef → Option Location
  | .type id => (c.get? id).bind (·.location)
  | .member owner index => (c.member? owner index).bind (·.location)

end Compilation

end ConventionLint
