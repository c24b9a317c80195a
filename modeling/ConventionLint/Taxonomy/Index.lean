import ConventionLint.Taxonomy.Classification

/-!
# The index of a compilation

Which business rules target a command and which use cases handle it are questions about all types.
The index answers them from one pass over the declared types. External types that differ only in
the imports at the place they were named count as one.
-/
namespace ConventionLint

namespace Compilation

/-- Whether two external types were written with the same name and number of arguments. -/
def sameExternal (a b : TypeSymbol) : Bool :=
  a.kind = .external && b.kind = .external && a.qualifier = b.qualifier && a.name = b.name
    && a.typeParameters.length = b.typeParameters.length

/-- The first of the types that count as one with a type. -/
def canonical (c : Compilation) (id : TypeId) : TypeId :=
  match (c.get? id).bind fun t => c.types.find? (sameExternal t) with
  | some first => first.id
  | none => id

end Compilation

structure SymbolIndex where
  taxonomies : List (TypeId × Taxonomy)
  /-- Business rules behind the command that they target. -/
  rules : List (TypeId × TypeId)
  /-- Use cases behind the command that they handle. -/
  useCases : List (TypeId × TypeId)

namespace SymbolIndex

def ofTaxonomies (c : Compilation) (taxonomies : List (TypeId × Taxonomy)) : SymbolIndex where
  taxonomies := taxonomies
  rules := taxonomies.filterMap fun
    | (id, .businessRule (some target)) => some (c.canonical target, id)
    | _ => none
  useCases := taxonomies.filterMap fun
    | (id, .useCase (some command) _) => some (c.canonical command, id)
    | _ => none

def build (r : Resolver) : SymbolIndex :=
  ofTaxonomies r.compilation (r.compilation.declaredTypes.map fun t => (t.id, r.classify t.id))

end SymbolIndex

/-- What rules may ask about a compilation. -/
structure Context where
  resolver : Resolver
  index : SymbolIndex

namespace Context

def of (compilation : Compilation) (markers : MarkerSet) : Context :=
  let resolver : Resolver := ⟨compilation, markers⟩
  ⟨resolver, .build resolver⟩

def compilation (c : Context) : Compilation :=
  c.resolver.compilation

def taxonomy? (c : Context) (id : TypeId) : Option Taxonomy :=
  c.index.taxonomies.lookup id

def taxonomy (c : Context) (id : TypeId) : Taxonomy :=
  (c.taxonomy? id).getD (c.resolver.classify id)

def behind (c : Context) (pairs : List (TypeId × TypeId)) (command : TypeId) : List TypeId :=
  let key := c.compilation.canonical command
  (pairs.filter (·.1 = key)).map (·.2)

/-- The business rules that target a command. -/
def rulesFor (c : Context) (command : TypeId) : List TypeId :=
  c.behind c.index.rules command

/-- The use cases that handle a command. -/
def useCasesFor (c : Context) (command : TypeId) : List TypeId :=
  c.behind c.index.useCases command

def hasRuleFor (c : Context) (command : TypeId) : Bool :=
  !(c.rulesFor command).isEmpty

def isUseCaseCommand (c : Context) (id : TypeId) : Bool :=
  !(c.useCasesFor id).isEmpty

end Context

end ConventionLint
