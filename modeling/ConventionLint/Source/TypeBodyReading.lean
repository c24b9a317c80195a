import ConventionLint.Source.HeaderReading

/-!
# Reading type declarations

A body is a sequence of members and nested declarations; a declaration is a head and perhaps a
body. Bodies nest, so the two readers call each other, on fewer tokens and one level deeper.
-/
namespace ConventionLint.Source

structure TypeBody where
  members : List MemberDeclaration
  nested : List TypeDeclaration
deriving Repr

namespace TypeBody

def empty : TypeBody := ⟨[], []⟩

def addMembers (body : TypeBody) (members : List MemberDeclaration) : TypeBody :=
  { body with members := members.reverse ++ body.members }

def addNested (body : TypeBody) (nested : Option TypeDeclaration) : TypeBody :=
  { body with nested := nested.toList ++ body.nested }

/-- Members and nested types were added at the front; this puts them in order. -/
def inOrder (body : TypeBody) : TypeBody :=
  ⟨body.members.reverse, body.nested.reverse⟩

end TypeBody

def Header.declare (header : Header) (qualifier : Option String) (modifiers : List String)
    (body : TypeBody) : TypeDeclaration where
  name := header.name.text
  kind := header.kind
  qualifier := qualifier
  typeParameters := header.typeParameters
  baseList := header.baseList
  members := body.members
  nested := body.nested
  position := header.name.position
  isPartial := modifiers.contains "partial"

mutual

/-- Reads a type declaration behind its keyword. -/
def readDeclaration (depth : Nat) (qualifier : Option String) (modifiers : List String)
    (keyword : String) (ts : List Token) :
    Except Fault (Reading (Option TypeDeclaration) ts) := do
  let head ← readHeader depth keyword ts
  match head.value with
  | none => return ⟨none, head.rest, head.bound⟩
  | some header =>
    if opened : startsWith "\x7b" head.rest then
      have shorter : head.rest.tail.length < ts.length :=
        Nat.lt_of_lt_of_le (tail_shorter opened) head.bound
      let inner ← enter depth head.rest.tail
      let body ← readBody inner qualifier ⟨header.name.text, header.kind⟩ .empty head.rest.tail
      return ⟨some (header.declare qualifier modifiers body.value), skipOne ";" body.rest,
        Nat.le_trans (skipOne_length _ _) (Nat.le_trans body.bound (Nat.le_of_lt shorter))⟩
    else
      return ⟨some (header.declare qualifier modifiers .empty), skipOne ";" head.rest,
        Nat.le_trans (skipOne_length _ _) head.bound⟩
termination_by 2 * ts.length + 1
decreasing_by simp only [List.length_tail] at *; omega

/-- Reads a body behind its opening brace through the closing one, `found` being read. -/
def readBody (depth : Nat) (qualifier : Option String) (owner : Owner) (found : TypeBody)
    (ts : List Token) : Except Fault (Reading TypeBody ts) :=
  match ts with
  | [] => .ok ⟨found.inOrder, [], Nat.le_refl _⟩
  | t :: rest =>
    if t.isPunctuation "\x7d" then .ok ⟨found.inOrder, rest, Nat.le_succ _⟩
    else if t.isPunctuation ";" then do
      return (← readBody depth qualifier owner found rest).lift (Nat.le_succ _)
    else if t.isPunctuation "[" then do
      have grouped : (skipBalanced (t :: rest)).length ≤ rest.length :=
        skipBalanced_cons_length t rest
      return (← readBody depth qualifier owner found (skipBalanced (t :: rest))).lift
        (Nat.le_succ_of_le grouped)
    else
      let modified := readModifiers (t :: rest)
      match behind : modified.2 with
      | [] => .ok ⟨found.inOrder, [], Nat.zero_le _⟩
      | first :: more =>
        have first_length : more.length ≤ rest.length := readModifiers_cons_length behind
        if ended : first.isPunctuation "\x7d" then
          .ok ⟨found.inOrder, more, Nat.le_succ_of_le first_length⟩
        else if startsDeclaration (first :: more) then do
          let declared ← readDeclaration depth qualifier modified.1 first.text more
          have declared_length : declared.rest.length ≤ rest.length :=
            Nat.le_trans declared.bound first_length
          return (← readBody depth qualifier owner (found.addNested declared.value)
            declared.rest).lift (Nat.le_succ_of_le declared_length)
        else
          match read : readMember owner depth modified.1 (first :: more) with
          | .error fault => .error fault
          | .ok (members, left) => do
            have left_length : left.length ≤ rest.length :=
              Nat.le_trans (readMember_shorter read (eq_false_of_ne_true ended)) first_length
            return (← readBody depth qualifier owner (found.addMembers members) left).lift
              (Nat.le_succ_of_le left_length)
termination_by 2 * ts.length
decreasing_by all_goals simp only [List.length_cons]; omega

end

end ConventionLint.Source
