import ConventionLint.Binding.Reference
import ConventionLint.Symbol

/-!
# Building a compilation

The base list of every declared type is bound, which tells what else the compilation holds: the
external types and type parameters that references name, in the order in which they are met. Then
all of them are numbered, declared types first, and references become edges.
-/
namespace ConventionLint.Binding

def typeKind : DeclarationKind → TypeKind
  | .plainClass => .plainClass
  | .struct | .recordStruct => .struct
  | .interface => .interface
  | .record => .record

namespace Group

def kind (g : Group) : TypeKind :=
  typeKind g.first.declaration.kind

def ownParameters (g : Group) : List (DeclaredKey × String) :=
  g.first.declaration.typeParameters.map (g.key, ·)

end Group

/-- The type parameters in sight of each type, those of its containers behind its own. A container
stands before what it contains. -/
def parameterScopes (gs : List Group) : List (DeclaredKey × List (DeclaredKey × String)) :=
  gs.foldl (fun scopes g =>
    let outer := (g.first.container.bind fun key => scopes.lookup key).getD []
    scopes ++ [(g.key, g.ownParameters ++ outer)]) []

/-- An external type is taken for an interface when its name starts with `I` and a capital. -/
def hasInterfaceName (name : String) : Bool :=
  match name.toList with
  | 'I' :: c :: _ => c.isUpper
  | _ => false

def isInterface (gs : List Group) (r : Reference) : Bool :=
  match r.target with
  | .declared key => gs.any fun g => g.key = key && g.kind = .interface
  | .external _ name _ _ => hasInterfaceName name
  | .parameter _ _ => false

/-- The edges of a declared type, and the keys they were bound to in order. -/
structure Edges where
  base : Option Reference
  interfaces : List Reference
  keys : List SymbolKey

/-- Divides a bound base list: a class or record has the first entry as its base unless that is an
interface, and then the root. -/
def divide (n : Names) (gs : List Group) (kind : TypeKind) (written : List Reference) : Edges :=
  let keys := Reference.keysOfAll written
  let rooted : Edges := ⟨some ⟨n.rootName, n.root, []⟩, written, keys ++ [n.root]⟩
  if kind = .plainClass || kind = .record then
    match written with
    | first :: rest => if isInterface gs first then rooted else ⟨some first, rest, keys⟩
    | [] => rooted
  else ⟨none, written, keys⟩

/-- The scope in which the base list of a type is bound. -/
def scopeOf (scopes : List (DeclaredKey × List (DeclaredKey × String))) (g : Group) : Scope where
  qualifier := g.key.qualifier
  imports := g.basePart.file.imports
  aliases := g.basePart.file.aliases
  parameters := (scopes.lookup g.key).getD []

/-- The edges of a declared type, `bindEntry` being what binds the entries of its base list. -/
def edgesWith (bindEntry : Names → Scope → WrittenType → Reference) (n : Names) (gs : List Group)
    (scopes : List (DeclaredKey × List (DeclaredKey × String))) (g : Group) : Edges :=
  divide n gs g.kind (g.basePart.declaration.baseList.map (bindEntry n (scopeOf scopes g)))

/-- The symbols of a written member: an auto-implemented property brings its storage along. -/
def memberSymbols (path : Path) (m : MemberDeclaration) : List MemberSymbol :=
  let location : Location := ⟨path, m.position.line, m.position.column⟩
  let written := fun (kind : MemberKind) =>
    (⟨m.name, kind, m.accessibility, some location, false⟩ : MemberSymbol)
  match m.kind with
  | .property setter auto =>
    let storage : MemberSymbol :=
      ⟨"<" ++ m.name ++ ">k__BackingField", .field, .privateAccess, none, true⟩
    if auto then [written (.property setter), storage] else [written (.property setter)]
  | .field => [written .field]
  | .method => [written .method]

def Group.members (g : Group) : List MemberSymbol :=
  g.parts.flatMap fun part => part.declaration.members.flatMap (memberSymbols part.file.path)

/-- The keys of a compilation, in the order of their numbers. -/
def symbolKeys (gs : List Group) (edges : List Edges) : List SymbolKey :=
  let declared := gs.map (SymbolKey.declared ·.key)
  declared ++ ((edges.flatMap (·.keys)).eraseDups.filter (!declared.contains ·))

section

variable (keys : List SymbolKey)

/-- The number of a key. -/
def idOf (key : SymbolKey) : TypeId :=
  keys.idxOf key

mutual

def edgeOf : Reference → TypeRef
  | ⟨name, target, arguments⟩ => ⟨name, some (idOf keys target), edgesOfAll arguments⟩

def edgesOfAll : List Reference → List TypeRef
  | [] => []
  | r :: rs => edgeOf r :: edgesOfAll rs

end

def declaredSymbol (g : Group) (edges : Edges) : TypeSymbol where
  id := idOf keys (.declared g.key)
  name := g.key.name
  qualifier := g.key.qualifier
  kind := g.kind
  typeParameters := g.first.declaration.typeParameters
  base := edges.base.map (edgeOf keys)
  interfaces := edgesOfAll keys edges.interfaces
  members := g.members
  location := some ⟨g.first.file.path, g.first.declaration.position.line,
    g.first.declaration.position.column⟩
  imports := []
  container := g.first.container.map (idOf keys <| .declared ·)

/-- The symbol of a type that is referred to and not declared. -/
def referredSymbol : SymbolKey → Option TypeSymbol
  | .declared _ => none
  | .external qualifier name arity imports => some
    { id := idOf keys (.external qualifier name arity imports), name, qualifier, kind := .external
      typeParameters := (List.range arity).map fun i => "T" ++ i.repr
      base := none, interfaces := [], members := [], location := none, imports, container := none }
  | .parameter owner name => some
    { id := idOf keys (.parameter owner name), name, qualifier := none, kind := .typeParameter
      typeParameters := [], base := none, interfaces := [], members := [], location := none
      imports := [], container := some (idOf keys (.declared owner)) }

end

end Binding

namespace Compilation

/-- The compilation of the files' declarations, in which all classes derive from the root. -/
def buildWith (bindEntry : Binding.Names → Binding.Scope → WrittenType → Binding.Reference)
    (root : String) (files : List SourceFile) : Compilation :=
  let gs := Binding.groups (Binding.sites files)
  let (rootQualifier, rootName) := Text.splitName root
  let names : Binding.Names := ⟨gs.map (·.key), rootQualifier, rootName⟩
  let scopes := Binding.parameterScopes gs
  let edges := gs.map (Binding.edgesWith bindEntry names gs scopes)
  let keys := Binding.symbolKeys gs edges
  .ofTypes
    (List.zipWith (Binding.declaredSymbol keys) gs edges
      ++ keys.filterMap (Binding.referredSymbol keys))
    (files.map (·.path))

/-- The compilation of files. It is never done where an alias that a base list uses reaches itself. -/
def ofFiles (root : String) (files : List SourceFile) : Compilation :=
  buildWith Binding.Reference.ofAliased root files

/-- The compilation of files with a bound on how deep aliases are replaced: what `ofFiles` gives
when it gives something. -/
def build (root : String) (files : List SourceFile) : Compilation :=
  buildWith Binding.Reference.resolve root files

end Compilation

end ConventionLint
