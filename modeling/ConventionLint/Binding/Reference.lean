import ConventionLint.Binding.Alias
import ConventionLint.Binding.Site
import ConventionLint.Text.Dotted

/-!
# Looking up names

A written type is bound to a key, which says what it denotes: a declared type, an external type or
a type parameter. First come keywords and type parameters, then declared types: in the namespace at
hand and those around it, then in the imported ones. What is declared nowhere is external. A
qualified name is first taken as it stands and then as continuing a surrounding namespace.
-/
namespace ConventionLint.Binding

inductive SymbolKey where
  | declared (key : DeclaredKey)
  /-- Without a qualifier, external types differ by the namespaces imported where they are named. -/
  | external (qualifier : Option String) (name : String) (arity : Nat) (imports : List String)
  | parameter (owner : DeclaredKey) (name : String)
deriving DecidableEq, Repr, Nonempty

/-- Keywords for framework types. -/
def keywordTypes : List (String × String) :=
  [("string", "String"), ("bool", "Boolean"), ("byte", "Byte"), ("sbyte", "SByte"),
   ("char", "Char"), ("short", "Int16"), ("ushort", "UInt16"), ("int", "Int32"),
   ("uint", "UInt32"), ("long", "Int64"), ("ulong", "UInt64"), ("float", "Single"),
   ("double", "Double"), ("decimal", "Decimal"), ("void", "Void")]

/-- The names in sight of a base list. -/
structure Scope where
  qualifier : Option String
  imports : List String
  aliases : List UsingAlias
  /-- Type parameters with their owners, innermost first. -/
  parameters : List (DeclaredKey × String)

/-- The names of the type parameters in sight, which hide aliases. -/
def Scope.hidden (scope : Scope) : List String :=
  scope.parameters.map (·.2)

/-- Whether one type is bound in order to bind another: as an argument of what that comes to when its
leading alias is replaced. -/
def Scope.BindsFirst (scope : Scope) (argument t : WrittenType) : Prop :=
  argument ∈ (t.expandOnce scope.aliases scope.hidden).arguments

/-- The declared types and the type that all classes derive from. -/
structure Names where
  declared : List DeclaredKey
  rootQualifier : Option String
  rootName : String

namespace Names

def lookup (n : Names) (qualifier : Option String) (name : String) (arity : Nat) :
    Option SymbolKey :=
  let key : DeclaredKey := ⟨qualifier, name, arity⟩
  if n.declared.contains key then some (.declared key) else none

def root (n : Names) : SymbolKey :=
  (n.lookup n.rootQualifier n.rootName 0).getD (.external n.rootQualifier n.rootName 0 [])

/-- A keyword or a type parameter. -/
def bindWord (n : Names) (scope : Scope) (name : String) : Option SymbolKey :=
  if name = "object" then some n.root
  else
    match keywordTypes.lookup name with
    | some framework => some (.external (some "System") framework 0 [])
    | none =>
      (scope.parameters.find? (·.2 = name)).map fun (owner, name) => .parameter owner name

def bindQualified (n : Names) (scope : Scope) (qualifier name : String) (arity : Nat) :
    SymbolKey :=
  let around := (Text.namespaceChain scope.qualifier).filterMap id
  let places := qualifier :: around.map (· ++ "." ++ qualifier)
  (places.findSome? fun place => n.lookup (some place) name arity).getD
    (.external (some qualifier) name arity [])

def bindSimple (n : Names) (scope : Scope) (name : String) (arity : Nat) : SymbolKey :=
  let places := Text.namespaceChain scope.qualifier ++ scope.imports.map some
  (places.findSome? fun place => n.lookup place name arity).getD
    (.external none name arity (Text.sortedSet scope.imports))

/-- What a written type denotes, its arguments apart. -/
def bind (n : Names) (scope : Scope) (t : WrittenType) : SymbolKey :=
  match t.qualifier with
  | some qualifier => n.bindQualified scope qualifier t.name t.arguments.length
  | none =>
    let word := if t.arguments.isEmpty then n.bindWord scope t.name else none
    word.getD (n.bindSimple scope t.name t.arguments.length)

end Names

/-- A reference whose targets are keys. -/
structure Reference where
  name : String
  target : SymbolKey
  arguments : List Reference
deriving Repr, Nonempty

namespace Reference

section

variable (n : Names) (scope : Scope)

mutual

/-- Binds a type without aliases. -/
def ofWritten : WrittenType → Reference
  | ⟨qualifier, name, arguments⟩ =>
    ⟨name, n.bind scope ⟨qualifier, name, arguments⟩, ofAllWritten arguments⟩

def ofAllWritten : List WrittenType → List Reference
  | [] => []
  | t :: ts => ofWritten t :: ofAllWritten ts

end

/-- Binds a type as written, replacing aliases for as long as there are any. This goes on for ever
where an alias reaches itself through the arguments of its target. -/
def ofAliased : WrittenType → Reference :=
  WellFounded.partialExtrinsicFix scope.BindsFirst fun t bindArgument =>
    let expanded := t.expandOnce scope.aliases scope.hidden
    ⟨expanded.name, n.bind scope expanded,
      expanded.arguments.attach.map fun argument => bindArgument argument.1 argument.2⟩

/-- Binds a type as written, with a bound on how deep aliases are replaced. -/
def resolve (t : WrittenType) : Reference :=
  ofWritten n scope (t.expand scope.aliases (scope.parameters.map (·.2)))

end

mutual

/-- The keys a reference holds, those of its arguments first. -/
def keys : Reference → List SymbolKey
  | ⟨_, target, arguments⟩ => keysOfAll arguments ++ [target]

def keysOfAll : List Reference → List SymbolKey
  | [] => []
  | r :: rs => r.keys ++ keysOfAll rs

end

end Reference

end ConventionLint.Binding
