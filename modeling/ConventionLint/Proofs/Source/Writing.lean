import ConventionLint.Source.FileReading
import Mathlib.Data.List.Chain

/-!
# Writing declarations

How the declarations of a file are written as source text: lexemes with a space behind each. What a
declaration does not tell is written in one way, except that a style may choose how the accessors of
a property say what is known of it. Positions play no part.
-/
namespace ConventionLint

namespace Text

/-- What stands between the dots of a name. -/
def segments (dotted : String) : List String :=
  (splitAtEach '.' dotted.toList).map String.ofList

theorem segments_ne_nil (dotted : String) : segments dotted ≠ [] := by
  simp [segments, splitAtEach_ne_nil]

theorem intercalate_map_ofList (texts : List (List Char)) :
    ".".intercalate (texts.map String.ofList) = String.ofList (joinWith '.' texts) := by
  induction texts with
  | nil => rfl
  | cons text texts ih =>
    cases texts with
    | nil => exact String.intercalate_singleton
    | cons next texts =>
      have dot (rest : List Char) : String.ofList ('.' :: rest) = "." ++ String.ofList rest :=
        @String.ofList_append ['.'] rest
      rw [List.map_cons, List.map_cons, String.intercalate_cons_cons, ← List.map_cons, ih, joinWith,
        String.ofList_append, dot, String.append_assoc]

/-- The segments make the name again. -/
theorem intercalate_segments (dotted : String) : ".".intercalate (segments dotted) = dotted := by
  rw [segments, intercalate_map_ofList, joinWith_splitAtEach, String.ofList_toList]

end Text

namespace Source

/-- A token without its place. -/
structure Lexeme where
  kind : LexemeKind
  text : String
deriving DecidableEq, Repr

namespace Lexeme

def word (text : String) : Lexeme :=
  ⟨.identifier, text⟩

def mark (text : String) : Lexeme :=
  ⟨.punctuation, text⟩

def words (texts : List String) : List Lexeme :=
  texts.map word

def dotted : List String → List Lexeme
  | [] => []
  | first :: more => word first :: more.flatMap fun name => [mark ".", word name]

def written (lexemes : List Lexeme) : String :=
  String.ofList (lexemes.flatMap fun l => l.text.toList ++ [' '])

end Lexeme

/-- Names that the reader takes for something else in some place or other. The language reserves
these words and more. -/
def reservedNames : List String :=
  ["class", "struct", "static", "in", "out", "operator", "this"]

def isIdentifierText (text : String) : Bool :=
  match text.toList with
  | [] => false
  | c :: rest => isWordStart c && rest.all isWordRest

def isName (text : String) : Bool :=
  isIdentifierText text && !reservedNames.contains text

def isDottedName (text : String) : Bool :=
  (Text.segments text).all isName

end Source

open Source Source.Lexeme

namespace WrittenType

def segments (t : WrittenType) : List String :=
  match t.qualifier with
  | some qualifier => Text.segments qualifier ++ [t.name]
  | none => [t.name]

theorem segments_ne_nil (t : WrittenType) : t.segments ≠ [] := by
  cases written : t.qualifier <;> simp [segments, written]

mutual

def lexemes : WrittenType → List Lexeme
  | ⟨qualifier, name, []⟩ => dotted (segments ⟨qualifier, name, []⟩)
  | ⟨qualifier, name, first :: more⟩ =>
    dotted (segments ⟨qualifier, name, []⟩)
      ++ mark "<" :: (first.lexemes ++ (lexemesBehind more ++ [mark ">"]))

/-- Types behind another one in a list. -/
def lexemesBehind : List WrittenType → List Lexeme
  | [] => []
  | t :: ts => mark "," :: (t.lexemes ++ lexemesBehind ts)

end

mutual

/-- How deep type arguments nest. -/
def nesting : WrittenType → Nat
  | ⟨_, _, []⟩ => 0
  | ⟨_, _, first :: more⟩ => max first.nesting (nestingAll more) + 1

def nestingAll : List WrittenType → Nat
  | [] => 0
  | t :: ts => max t.nesting (nestingAll ts)

end

mutual

def isWritable : WrittenType → Bool
  | ⟨qualifier, name, arguments⟩ =>
    (segments ⟨qualifier, name, []⟩).all isName && isWritableAll arguments

def isWritableAll : List WrittenType → Bool
  | [] => true
  | t :: ts => t.isWritable && isWritableAll ts

end

end WrittenType

def Accessibility.words : Accessibility → List String
  | .publicAccess => ["public"]
  | .internalAccess => ["internal"]
  | .protectedAccess => ["protected"]
  | .protectedInternal => ["protected", "internal"]
  | .privateProtected => ["private", "protected"]
  | .privateAccess => ["private"]

inductive AccessorKeyword where
  | get
  | set
  | init
deriving DecidableEq, Repr

def AccessorKeyword.text : AccessorKeyword → String
  | .get => "get"
  | .set => "set"
  | .init => "init"

/-- An accessor as it is written. Without an accessibility of its own it has that of the property. -/
structure Accessor where
  accessibility : Option Accessibility
  keyword : AccessorKeyword
  hasBody : Bool
deriving DecidableEq, Repr

namespace Accessor

def lexemes (a : Accessor) : List Lexeme :=
  words ((a.accessibility.map (·.words)).getD []) ++ word a.keyword.text ::
    if a.hasBody then [mark "\x7b", mark "\x7d"] else [mark ";"]

def setter? (property : Accessibility) (a : Accessor) : Option Setter :=
  match a.keyword with
  | .get => none
  | .set => some ⟨a.accessibility.getD property, false⟩
  | .init => some ⟨a.accessibility.getD property, true⟩

/-- The accessors of a property whose last setter is the given one. -/
structure Tells (accessors : List Accessor) (property : Accessibility) (owner : DeclarationKind)
    (setter : Option Setter) (auto : Bool) : Prop where
  setter_eq : (accessors.filterMap (setter? property)).getLast? = setter
  auto_iff : auto = true ↔ accessors ≠ [] ∧ (∀ a ∈ accessors, a.hasBody = false) ∧
    owner ≠ .interface

end Accessor

/-- How the accessors of properties are written. No property of an interface has storage. -/
structure AccessorStyle where
  accessors : DeclarationKind → MemberDeclaration → List Accessor
  tells {owner : DeclarationKind} {m : MemberDeclaration} {setter : Option Setter} {auto : Bool} :
    m.kind = .property setter auto → (auto = true → owner ≠ .interface) →
      Accessor.Tells (accessors owner m) m.accessibility owner setter auto

namespace AccessorStyle

/-- A getter and the setter, both with bodies unless storage comes with the property. -/
def plainAccessors (m : MemberDeclaration) : List Accessor :=
  match m.kind with
  | .property setter auto =>
    ⟨none, .get, !auto⟩ ::
      (setter.map fun s => ⟨some s.accessibility, if s.initOnly then .init else .set, !auto⟩).toList
  | .field | .method => []

def plain : AccessorStyle where
  accessors _ m := plainAccessors m
  tells {owner m setter auto} shape stored := by
    rw [plainAccessors, shape]
    constructor
    · cases setter with
      | none => rfl
      | some setter => obtain ⟨accessibility, _ | _⟩ := setter <;> rfl
    · cases auto <;> cases setter <;> simp_all

end AccessorStyle

namespace MemberDeclaration

def typeWord (m : MemberDeclaration) : String :=
  match m.kind with
  | .field | .property _ _ => "int"
  | .method => "void"

def lexemesBehindName (style : AccessorStyle) (owner : DeclarationKind) (m : MemberDeclaration) :
    List Lexeme :=
  match m.kind with
  | .field => [mark ";"]
  | .method => [mark "(", mark ")", mark ";"]
  | .property _ _ =>
    mark "\x7b" :: ((style.accessors owner m).flatMap (·.lexemes) ++ [mark "\x7d"])

def lexemes (style : AccessorStyle) (owner : DeclarationKind) (m : MemberDeclaration) :
    List Lexeme :=
  words m.accessibility.words ++ word m.typeWord :: word m.name :: m.lexemesBehindName style owner

def isWritable (owner : DeclarationKind) (m : MemberDeclaration) : Bool :=
  isName m.name &&
    match m.kind with
    | .property _ auto => !auto || owner ≠ .interface
    | .field | .method => true

def unplaced (m : MemberDeclaration) : MemberDeclaration :=
  { m with position := .start }

end MemberDeclaration

def DeclarationKind.keywords : DeclarationKind → List String
  | .plainClass => ["class"]
  | .struct => ["struct"]
  | .interface => ["interface"]
  | .record => ["record"]
  | .recordStruct => ["record", "struct"]

namespace TypeDeclaration

def typeParameterLexemes : List String → List Lexeme
  | [] => []
  | first :: more =>
    mark "<" :: word first :: (more.flatMap fun name => [mark ",", word name]) ++ [mark ">"]

def baseLexemes : List WrittenType → List Lexeme
  | [] => []
  | first :: more => mark ":" :: (first.lexemes ++ WrittenType.lexemesBehind more)

mutual

def lexemes (style : AccessorStyle) : TypeDeclaration → List Lexeme
  | ⟨name, kind, _, typeParameters, baseList, members, nested, _, isPartial⟩ =>
    words (if isPartial then ["partial"] else []) ++ words kind.keywords ++
      word name :: (typeParameterLexemes typeParameters ++ baseLexemes baseList ++ mark "\x7b" ::
        (members.flatMap (·.lexemes style kind) ++ (lexemesAll style nested ++ [mark "\x7d"])))

def lexemesAll (style : AccessorStyle) : List TypeDeclaration → List Lexeme
  | [] => []
  | d :: ds => d.lexemes style ++ lexemesAll style ds

end

mutual

/-- How deep type bodies and type arguments nest. -/
def nesting : TypeDeclaration → Nat
  | ⟨_, _, _, _, baseList, _, nested, _, _⟩ =>
    max (WrittenType.nestingAll baseList) (nestingAll nested + 1)

def nestingAll : List TypeDeclaration → Nat
  | [] => 0
  | d :: ds => max d.nesting (nestingAll ds)

end

mutual

/-- Whether names are names, interfaces have no storage and nested types share a namespace with
their containers. -/
def isWritable : TypeDeclaration → Bool
  | ⟨name, kind, qualifier, typeParameters, baseList, members, nested, _, _⟩ =>
    isName name && typeParameters.all isName && WrittenType.isWritableAll baseList &&
      members.all (·.isWritable kind) && isWritableAll qualifier nested

def isWritableAll (qualifier : Option String) : List TypeDeclaration → Bool
  | [] => true
  | d :: ds => d.isWritable && d.qualifier = qualifier && isWritableAll qualifier ds

end

mutual

def unplaced : TypeDeclaration → TypeDeclaration
  | ⟨name, kind, qualifier, typeParameters, baseList, members, nested, _, isPartial⟩ =>
    ⟨name, kind, qualifier, typeParameters, baseList, members.map (·.unplaced), unplacedAll nested,
      .start, isPartial⟩

def unplacedAll : List TypeDeclaration → List TypeDeclaration
  | [] => []
  | d :: ds => d.unplaced :: unplacedAll ds

end

/-- A declaration of a file in its namespace. -/
def lexemesInNamespace (style : AccessorStyle) (d : TypeDeclaration) : List Lexeme :=
  match d.qualifier with
  | none => d.lexemes style
  | some qualifier =>
    word "namespace" :: (dotted (Text.segments qualifier) ++ mark "\x7b" ::
      (d.lexemes style ++ [mark "\x7d"]))

def nestingInNamespace (d : TypeDeclaration) : Nat :=
  match d.qualifier with
  | none => d.nesting
  | some _ => d.nesting + 1

def isWritableInNamespace (d : TypeDeclaration) : Bool :=
  d.isWritable && d.qualifier.all isDottedName

end TypeDeclaration

namespace UsingAlias

def lexemes (a : UsingAlias) : List Lexeme :=
  word "using" :: word a.name :: mark "=" :: (a.target.lexemes ++ [mark ";"])

def isWritable (a : UsingAlias) : Bool :=
  isName a.name && a.target.isWritable

end UsingAlias

namespace SourceFile

def importLexemes (name : String) : List Lexeme :=
  word "using" :: (dotted (Text.segments name) ++ [mark ";"])

def lexemes (style : AccessorStyle) (f : SourceFile) : List Lexeme :=
  f.imports.flatMap importLexemes ++ (f.aliases.flatMap (·.lexemes) ++
    f.types.flatMap (·.lexemesInNamespace style))

def written (style : AccessorStyle) (f : SourceFile) : String :=
  Lexeme.written (f.lexemes style)

/-- How deep namespaces, type bodies and type arguments nest. -/
def nesting (f : SourceFile) : Nat :=
  max ((f.aliases.map (·.target.nesting)).foldr max 0)
    ((f.types.map (·.nestingInNamespace)).foldr max 0)

def isWritable (f : SourceFile) : Bool :=
  f.imports.all isDottedName && decide (f.imports.IsChain (· ≠ ·)) && f.aliases.all (·.isWritable) &&
    f.types.all (·.isWritableInNamespace)

def unplaced (f : SourceFile) : SourceFile :=
  { f with types := TypeDeclaration.unplacedAll f.types }

end SourceFile

end ConventionLint
