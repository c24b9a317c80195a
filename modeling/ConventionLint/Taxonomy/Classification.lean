import ConventionLint.Taxonomy.Marker

/-!
# Classification

The base types of a type go from the nearest to the farthest. The chain ends before the root, before
a type that occurred already and where a base is not resolved. A declared type is what its nearest
marker among its base types makes it. The command of a use case is the type argument of a base that
is the marker itself.
-/
namespace ConventionLint

/-- A compilation seen with a set of markers. -/
structure Resolver where
  compilation : Compilation
  markers : MarkerSet

namespace Resolver

def follow (r : Resolver) (reference : TypeRef) : Option TypeSymbol :=
  reference.target.bind r.compilation.get?

/-- The base types from a reference on, `seen` having occurred. Every step adds a type to `seen`, so
`limit` need not exceed the number of types. -/
def ancestryFrom (r : Resolver) : Nat → List TypeId → Option TypeRef → List TypeSymbol
  | limit + 1, seen, some reference =>
    match r.follow reference with
    | none => []
    | some base =>
      if base.name = (r.markers.marker .root).name || seen.contains base.id then []
      else base :: r.ancestryFrom limit (base.id :: seen) base.base
  | _, _, _ => []

def baseOf (r : Resolver) (id : TypeId) : Option TypeRef :=
  (r.compilation.get? id).bind (·.base)

def ancestry (r : Resolver) (id : TypeId) : List TypeSymbol :=
  r.ancestryFrom r.compilation.types.length [id] (r.baseOf id)

/-- Whether some base type has the given simple name. -/
def derivesFrom (r : Resolver) (id : TypeId) (name : String) : Bool :=
  (r.ancestry id).any (·.name = name)

def derivesFromMarker (r : Resolver) (id : TypeId) (kind : MarkerKind) : Bool :=
  (r.ancestry id).any (r.markers.isMarker · kind)

/-- The base type as it stands, root or not. -/
def directBase (r : Resolver) (id : TypeId) : Option TypeSymbol :=
  (r.baseOf id).bind r.follow

/-- The first type argument of the base type. -/
def firstArgument (r : Resolver) (id : TypeId) : Option TypeSymbol :=
  (r.baseOf id).bind fun base => base.arguments.head?.bind r.follow

end Resolver

inductive Taxonomy where
  /-- Derives from the root and from no marker. -/
  | rootDerived
  /-- `direct` when the base is the marker itself. -/
  | command (direct : Bool)
  | event
  | useCase (command : Option TypeId) (direct : Bool)
  | businessRule (target : Option TypeId)
  | unclassified
deriving DecidableEq, Repr

namespace Resolver

/-- The command of a use case: a type, and no type parameter. -/
def commandArgument (r : Resolver) (id : TypeId) : Option TypeId :=
  (r.firstArgument id).bind fun t => if t.kind = .typeParameter then none else some t.id

/-- What a base type of the given marker kind makes a type, if anything. -/
def classifyBy (r : Resolver) (id : TypeId) (direct : Bool) : MarkerKind → Option Taxonomy
  | .root => none
  | .command => some (.command direct)
  | .event => some .event
  | .useCase => some (.useCase (if direct then r.commandArgument id else none) direct)
  | .businessRule => some (.businessRule ((r.firstArgument id).map (·.id)))

/-- What the first marker among base types makes a type. With `direct` they start at its own base. -/
def classifyFrom (r : Resolver) (id : TypeId) (direct : Bool) :
    List TypeSymbol → Option Taxonomy
  | [] => none
  | base :: rest =>
    ((r.markers.kindOf base).bind (r.classifyBy id direct)).or (r.classifyFrom id false rest)

def classify (r : Resolver) (id : TypeId) : Taxonomy :=
  if ((r.compilation.get? id).any (·.kind.isDeclared)) then
    match r.classifyFrom id true (r.ancestry id) with
    | some taxonomy => taxonomy
    | none =>
      if (r.directBase id).any (r.markers.isMarker · .root) then .rootDerived else .unclassified
  else .unclassified

end Resolver

end ConventionLint
