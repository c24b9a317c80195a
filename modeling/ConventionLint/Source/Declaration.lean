import ConventionLint.Source.Position
import ConventionLint.Text.Split

/-!
# Declarations

What one source file declares, names not yet looked up: imports, aliases, types with their members,
and types nested in them. A type as it is written is a dotted qualifier, a name and type arguments.
-/
namespace ConventionLint

structure WrittenType where
  qualifier : Option String
  name : String
  arguments : List WrittenType
deriving Repr

namespace WrittenType

def simple (name : String) : WrittenType :=
  ⟨none, name, []⟩

/-- A dotted name without arguments; a `global::` in front of it means nothing. -/
def ofDotted (dotted : String) : WrittenType :=
  let text := dotted.toList
  let text := if "global::".toList.isPrefixOf text then text.drop 8 else text
  match Text.cutLast '.' text with
  | some (qualifier, name) => ⟨some (String.ofList qualifier), String.ofList name, []⟩
  | none => simple (String.ofList text)

/-- Qualifier and name, without the arguments. -/
def dottedName (t : WrittenType) : String :=
  match t.qualifier with
  | some qualifier => qualifier ++ "." ++ t.name
  | none => t.name

end WrittenType

/-- `using Alias = Target;`, for a type or a namespace. -/
structure UsingAlias where
  name : String
  target : WrittenType
deriving Repr

inductive Accessibility where
  | publicAccess
  | internalAccess
  | protectedAccess
  | protectedInternal
  | privateProtected
  | privateAccess
deriving DecidableEq, Repr

namespace Accessibility

def text : Accessibility → String
  | .publicAccess => "public"
  | .internalAccess => "internal"
  | .protectedAccess => "protected"
  | .protectedInternal => "protected internal"
  | .privateProtected => "private protected"
  | .privateAccess => "private"

def all : List Accessibility :=
  [.publicAccess, .internalAccess, .protectedAccess, .protectedInternal, .privateProtected,
   .privateAccess]

/-- What a list of modifiers says about accessibility, if anything. -/
def ofModifiers (modifiers : List String) : Option Accessibility :=
  let has := fun (word : String) => modifiers.contains word
  if has "public" then some .publicAccess
  else if has "protected" && has "internal" then some .protectedInternal
  else if has "protected" && has "private" then some .privateProtected
  else if has "protected" then some .protectedAccess
  else if has "internal" then some .internalAccess
  else if has "private" then some .privateAccess
  else none

end Accessibility

/-- The mutating accessor of a property. An `init` accessor runs during construction only. -/
structure Setter where
  accessibility : Accessibility
  initOnly : Bool
deriving DecidableEq, Repr

inductive MemberDeclarationKind where
  /-- `auto` when every accessor is without a body, so that storage comes with the property. -/
  | property (setter : Option Setter) (auto : Bool)
  | field
  | method
deriving DecidableEq, Repr

structure MemberDeclaration where
  name : String
  kind : MemberDeclarationKind
  accessibility : Accessibility
  position : Position
deriving DecidableEq, Repr

inductive DeclarationKind where
  | plainClass
  | struct
  | interface
  | record
  | recordStruct
deriving DecidableEq, Repr

def DeclarationKind.text : DeclarationKind → String
  | .plainClass => "class"
  | .struct => "struct"
  | .interface => "interface"
  | .record => "record"
  | .recordStruct => "record struct"

structure TypeDeclaration where
  name : String
  kind : DeclarationKind
  /-- The namespace it is written in; for a nested type, the one its container is written in. -/
  qualifier : Option String
  typeParameters : List String
  baseList : List WrittenType
  members : List MemberDeclaration
  nested : List TypeDeclaration
  position : Position
  isPartial : Bool
deriving Repr

mutual

/-- The declaration and everything nested in it, counted. -/
def TypeDeclaration.count : TypeDeclaration → Nat
  | ⟨_, _, _, _, _, _, nested, _, _⟩ => 1 + TypeDeclaration.countAll nested

def TypeDeclaration.countAll : List TypeDeclaration → Nat
  | [] => 0
  | d :: ds => d.count + TypeDeclaration.countAll ds

end

/-- Everything one source file declares. Imports and aliases hold for the whole file. -/
structure SourceFile where
  path : Path
  imports : List String
  aliases : List UsingAlias
  types : List TypeDeclaration
deriving Repr

def SourceFile.typeCount (file : SourceFile) : Nat :=
  TypeDeclaration.countAll file.types

end ConventionLint
