import ConventionLint.Source.Declaration
import ConventionLint.Text.Dotted

/-!
# Declaration sites

Every type declaration of every file, nested ones behind their container, with the key that decides
which type it is a part of. A nested type lives in the dotted name of its container.
-/
namespace ConventionLint.Binding

/-- Declarations of one key are parts of one type. -/
structure DeclaredKey where
  qualifier : Option String
  name : String
  arity : Nat
deriving DecidableEq, Repr

structure Site where
  key : DeclaredKey
  container : Option DeclaredKey
  declaration : TypeDeclaration
  file : SourceFile

mutual

def sitesOf (file : SourceFile) (qualifier : Option String) (container : Option DeclaredKey) :
    TypeDeclaration → List Site
  | ⟨name, kind, written, parameters, bases, members, nested, position, isPartial⟩ =>
    let key : DeclaredKey := ⟨qualifier, name, parameters.length⟩
    ⟨key, container,
      ⟨name, kind, written, parameters, bases, members, nested, position, isPartial⟩, file⟩
      :: sitesOfAll file (some (Text.qualify qualifier name)) (some key) nested

def sitesOfAll (file : SourceFile) (qualifier : Option String) (container : Option DeclaredKey) :
    List TypeDeclaration → List Site
  | [] => []
  | d :: ds => sitesOf file qualifier container d ++ sitesOfAll file qualifier container ds

end

/-- The sites of all files, in order. -/
def sites (files : List SourceFile) : List Site :=
  files.flatMap fun file => file.types.flatMap fun d => sitesOf file d.qualifier none d

/-- A type as the sites that declare it, in order. -/
structure Group where
  key : DeclaredKey
  first : Site
  further : List Site

namespace Group

def parts (g : Group) : List Site :=
  g.first :: g.further

/-- The part whose base list counts: the first that has one, else the first. -/
def basePart (g : Group) : Site :=
  (g.parts.find? (!·.declaration.baseList.isEmpty)).getD g.first

end Group

/-- Adds a site to the group of its key, or behind all groups. -/
def addSite (site : Site) : List Group → List Group
  | [] => [⟨site.key, site, []⟩]
  | g :: gs =>
    if g.key = site.key then { g with further := g.further ++ [site] } :: gs
    else g :: addSite site gs

/-- The types that sites declare, in the order of their first sites. -/
def groups (sites : List Site) : List Group :=
  sites.foldl (fun gs site => addSite site gs) []

end ConventionLint.Binding
