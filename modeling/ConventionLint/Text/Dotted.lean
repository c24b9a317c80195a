import ConventionLint.Text.Split

/-!
# Dotted names

Qualifiers, namespaces and identities are texts in which dots separate segments. Lists of them are
ordered by code points.
-/
namespace ConventionLint.Text

/-- The qualifier and the simple name of a dotted name. -/
def splitName (dotted : String) : Option String × String :=
  match cutLast '.' dotted.toList with
  | some (qualifier, name) => (some (String.ofList qualifier), String.ofList name)
  | none => (none, dotted)

/-- A name behind a qualifier, if there is one. -/
def qualify (qualifier : Option String) (name : String) : String :=
  match qualifier with
  | some qualifier => qualifier ++ "." ++ name
  | none => name

/-- The first segment and, unless it is the whole name, the text behind it. -/
def splitHead (dotted : String) : String × Option String :=
  match cutFirst '.' dotted.toList with
  | some (head, rest) => (String.ofList head, some (String.ofList rest))
  | none => (dotted, none)

/-- The texts before each dot of a dotted name, longest first. -/
def outerNames : List Char → List (List Char)
  | [] => []
  | c :: rest =>
    let inner := (outerNames rest).map (c :: ·)
    if c = '.' then inner ++ [[]] else inner

/-- A namespace, the ones around it from the nearest to the farthest, and the global one. -/
def namespaceChain (qualifier : Option String) : List (Option String) :=
  match qualifier with
  | some dotted =>
    some dotted :: (outerNames dotted.toList).map (some ∘ String.ofList) ++ [none]
  | none => [none]

/-- Keeps the first of equal neighbours. -/
def dropRepeats {α : Type} [DecidableEq α] : List α → List α
  | a :: b :: rest => if a = b then dropRepeats (b :: rest) else a :: dropRepeats (b :: rest)
  | l => l

/-- The texts in order, each once. -/
def sortedSet (l : List String) : List String :=
  dropRepeats (l.mergeSort fun a b => a ≤ b)

end ConventionLint.Text
