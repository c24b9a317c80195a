import ConventionLint.Source.Declaration
import ConventionLint.Text.Dotted

/-!
# Aliases

An alias stands for its target: an unqualified name without arguments is replaced by the target as
a whole, and the first segment of a qualifier by the target's dotted name. Only the arguments of a
target may hold further aliases. A type parameter hides an alias of its name.
-/
namespace ConventionLint.WrittenType

def aliasTarget (aliases : List UsingAlias) (name : String) : Option WrittenType :=
  (aliases.find? (·.name = name)).map (·.target)

/-- A qualifier with its first segment replaced, if that is an alias. -/
def expandQualifier (aliases : List UsingAlias) (qualifier : String) : String :=
  let (head, rest) := Text.splitHead qualifier
  match aliasTarget aliases head, rest with
  | some target, some rest => target.dottedName ++ "." ++ rest
  | some target, none => target.dottedName
  | none, _ => qualifier

/-- A type whose leading alias, if it has one, is replaced by the target. Type parameters hide
aliases of their names. -/
def expandOnce (aliases : List UsingAlias) (hidden : List String) : WrittenType → WrittenType
  | ⟨some qualifier, name, arguments⟩ => ⟨some (expandQualifier aliases qualifier), name, arguments⟩
  | ⟨none, name, []⟩ =>
    if hidden.contains name then ⟨none, name, []⟩
    else (aliasTarget aliases name).getD ⟨none, name, []⟩
  | ⟨none, name, first :: rest⟩ => ⟨none, name, first :: rest⟩

section

variable (aliases : List UsingAlias) (parameters : List String)
  (inTarget : WrittenType → WrittenType)

mutual

/-- Replaces the aliases of a type; `inTarget` is what happens to the arguments of a target. -/
def expandWith : WrittenType → WrittenType
  | ⟨some qualifier, name, arguments⟩ =>
    ⟨some (expandQualifier aliases qualifier), name, expandAllWith arguments⟩
  | ⟨none, name, []⟩ =>
    if parameters.contains name then ⟨none, name, []⟩
    else
      match aliasTarget aliases name with
      | some target => { target with arguments := target.arguments.map inTarget }
      | none => ⟨none, name, []⟩
  | ⟨none, name, first :: rest⟩ => ⟨none, name, expandWith first :: expandAllWith rest⟩

def expandAllWith : List WrittenType → List WrittenType
  | [] => []
  | t :: ts => expandWith t :: expandAllWith ts

end

end

/-- Replaces aliases, and in their targets again, at most `levels` deep. -/
def expandLevels (aliases : List UsingAlias) (parameters : List String) :
    Nat → WrittenType → WrittenType
  | 0, t => t
  | levels + 1, t => expandWith aliases parameters (expandLevels aliases parameters levels) t

/-- Replaces aliases as many levels deep as there are aliases, and one more. Those are all, unless an
alias reaches itself through the arguments of its target: then there would be no end to them. -/
def expand (aliases : List UsingAlias) (parameters : List String) (t : WrittenType) : WrittenType :=
  expandLevels aliases parameters (aliases.length + 1) t

end ConventionLint.WrittenType
