import ConventionLint.Text.Split

/-!
# Paths

A path is the text it was written as. Two paths are the same when their components agree: repeated
and trailing slashes, and a single dot anywhere but at the start, are filler. Paths are ordered
component by component, so that a directory's files stay together.
-/
namespace ConventionLint

structure Path where
  text : String
deriving DecidableEq, Repr

namespace Path

inductive Component where
  | root
  | current
  | parent
  | name (text : String)
deriving DecidableEq, Repr

namespace Component

protected def compare : Component → Component → Ordering
  | .root, .root | .current, .current | .parent, .parent => .eq
  | .root, _ => .lt
  | _, .root => .gt
  | .current, _ => .lt
  | _, .current => .gt
  | .parent, _ => .lt
  | _, .parent => .gt
  | .name a, .name b => compareOfLessAndEq a b

instance : Ord Component := ⟨Component.compare⟩

end Component

/-- What a path starts from. -/
inductive Anchor where
  | root
  | current
  | none
deriving DecidableEq, Repr

namespace Anchor

def text : Anchor → List Char
  | .root => ['/']
  | .current => ['.']
  | .none => []

def components : Anchor → List Component
  | .root => [.root]
  | .current => [.current]
  | .none => []

/-- The anchor of a text and the text behind it. A leading dot is one only as a whole segment. -/
def ofText : List Char → Anchor × List Char
  | '/' :: rest => (.root, rest)
  | ['.'] => (.current, [])
  | '.' :: '/' :: rest => (.current, '/' :: rest)
  | rest => (.none, rest)

end Anchor

abbrev Segment := List Char

def isFiller (s : Segment) : Bool :=
  s = [] || s = ['.']

def dropFiller (segments : List Segment) : List Segment :=
  segments.dropWhile isFiller

def anchor (p : Path) : Anchor :=
  (Anchor.ofText p.text.toList).1

/-- The segments behind the anchor, filler included. -/
def segments (p : Path) : List Segment :=
  match (Anchor.ofText p.text.toList).2 with
  | [] => []
  | rest => Text.splitAtEach '/' rest

def render (anchor : Anchor) (segments : List Segment) : Path :=
  ⟨String.ofList (anchor.text ++ Text.joinWith '/' segments)⟩

def componentOf (s : Segment) : Component :=
  if s = ['.', '.'] then .parent else .name (String.ofList s)

def components (p : Path) : List Component :=
  p.anchor.components ++ (p.segments.filter (!isFiller ·)).map componentOf

def compareComponents : List Component → List Component → Ordering
  | [], [] => .eq
  | [], _ :: _ => .lt
  | _ :: _, [] => .gt
  | a :: as, b :: bs => (compare a b).then (compareComponents as bs)

protected def compare (p q : Path) : Ordering :=
  compareComponents p.components q.components

instance : Ord Path := ⟨Path.compare⟩

/-- The same place, whatever the spelling. -/
def same (p q : Path) : Bool :=
  compare p q == .eq

def le (p q : Path) : Bool :=
  (compare p q).isLE

/-- Keeps the first of neighbours that mean the same place. -/
def dropRepeats : List Path → List Path
  | [] => []
  | p :: ps => p :: (dropRepeats ps).dropWhile p.same

/-- The places that paths mean, in order, each as it was spelled first. -/
def sortedSet (paths : List Path) : List Path :=
  dropRepeats (paths.mergeSort le)

/-- The name of the last component, unless that is a step upwards. -/
def fileName (p : Path) : Option String :=
  match dropFiller p.segments.reverse with
  | [] => none
  | s :: _ => if s = ['.', '.'] then none else some (String.ofList s)

/-- What follows the last dot of the file name, unless that dot is its first character. -/
def extension (p : Path) : Option String := do
  let name ← p.fileName
  let (stem, ending) ← Text.cutLast '.' name.toList
  if stem.isEmpty then none else some (String.ofList ending)

/-- The directories above the last of the given segments, which are listed last first. -/
def directoriesAbove (anchor : Anchor) : List Segment → List Path
  | [] => if anchor = .current then [⟨""⟩] else []
  | s :: rest =>
    if isFiller s then directoriesAbove anchor rest
    else render anchor (dropFiller rest).reverse :: directoriesAbove anchor rest

/-- The directories a path lies in, nearest first. -/
def directories (p : Path) : List Path :=
  directoriesAbove p.anchor p.segments.reverse

/-- A name below a directory. -/
def join (dir : Path) (name : String) : Path :=
  if name.toList.head? = some '/' then ⟨name⟩
  else if dir.text.isEmpty || dir.text.toList.getLast? = some '/' then ⟨dir.text ++ name⟩
  else ⟨dir.text ++ "/" ++ name⟩

/-- The segments left once the given ones, filler apart, have been passed. -/
def passSegments : List Segment → List Segment → Option (List Segment)
  | [], rest => some rest
  | _ :: _, [] => none
  | d :: ds, s :: rest =>
    if isFiller s then passSegments (d :: ds) rest
    else if s = d then passSegments ds rest
    else none

/-- The path as seen from a directory it lies in. -/
def relativeTo (p dir : Path) : Option Path :=
  let trimmed := fun (l : List Segment) => (dropFiller l.reverse).reverse
  if dir.components.isEmpty then some (render p.anchor (trimmed p.segments))
  else if dir.anchor ≠ p.anchor then none
  else
    (passSegments (dir.segments.filter (!isFiller ·)) p.segments).map fun rest =>
      render .none (trimmed (dropFiller rest))

end Path

end ConventionLint
