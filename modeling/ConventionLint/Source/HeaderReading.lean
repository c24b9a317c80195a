import ConventionLint.Source.MemberReading

/-!
# Reading the head of a type declaration

The head reaches from the keyword to the brace that opens the body, or to the semicolon or brace
that shows there is none. Enumerations and delegates declare nothing of interest and are skipped.
-/
namespace ConventionLint.Source

/-- Whether a type declaration starts here. -/
def startsDeclaration : List Token → Bool
  | [] => false
  | t :: rest =>
    t.isIdentifier
      && (["class", "struct", "interface", "enum", "delegate"].contains t.text
        || (t.text = "record" && startsWithIdentifier rest))

/-- The kind of type that a keyword declares, and the tokens behind the keyword. -/
def declarationKind (keyword : String) (ts : List Token) :
    Option DeclarationKind × List Token :=
  if keyword = "class" then (some .plainClass, ts)
  else if keyword = "struct" then (some .struct, ts)
  else if keyword = "interface" then (some .interface, ts)
  else if keyword = "record" then
    if startsWithWord "struct" ts then (some .recordStruct, ts.tail)
    else if startsWithWord "class" ts then (some .record, ts.tail)
    else (some .record, ts)
  else (none, ts)

theorem declarationKind_suffix (keyword : String) (ts : List Token) :
    (declarationKind keyword ts).2 <:+ ts := by
  rw [declarationKind]
  repeat' split
  all_goals first
    | exact List.tail_suffix ts
    | exact List.suffix_rfl

theorem declarationKind_length (keyword : String) (ts : List Token) :
    (declarationKind keyword ts).2.length ≤ ts.length :=
  (declarationKind_suffix ..).length_le

/-- Type parameters behind their opening bracket, `found` (last first) being read. -/
def readTypeParameters (found : List String) (ts : List Token) : List String × List Token :=
  match ts with
  | [] => (found.reverse, [])
  | t :: rest =>
    if t.isPunctuation ">" then (found.reverse, rest)
    else if t.isPunctuation "[" then readTypeParameters found (skipBalanced (t :: rest))
    else if t.isIdentifier && !t.isWord "in" && !t.isWord "out" then
      readTypeParameters (t.text :: found) rest
    else readTypeParameters found rest
termination_by ts.length
decreasing_by
  · have := skipBalanced_length (t :: rest)
    simp only [List.length_cons] at this ⊢
    omega
  all_goals simp

theorem readTypeParameters_suffix (found : List String) (ts : List Token) :
    (readTypeParameters found ts).2 <:+ ts := by
  fun_induction readTypeParameters found ts with
  | case1 => exact List.suffix_rfl
  | case2 => exact List.suffix_cons _ _
  | case3 found t rest _ _ ih => exact ih.trans (skipBalanced_suffix (t :: rest))
  | case4 _ _ _ _ _ _ ih => exact cons_suffix ih
  | case5 _ _ _ _ _ _ ih => exact cons_suffix ih

/-- Drops a parameter or argument list, when the tokens start with one. -/
def skipParameters (ts : List Token) : List Token :=
  if startsWith "(" ts then skipBalanced ts else ts

theorem skipParameters_suffix (ts : List Token) : skipParameters ts <:+ ts := by
  rw [skipParameters]
  split
  · exact skipBalanced_suffix ts
  · exact List.suffix_rfl

theorem skipParameters_length (ts : List Token) : (skipParameters ts).length ≤ ts.length :=
  (skipParameters_suffix ..).length_le

/-- The type parameters, when the tokens start with a list of them. -/
def readTypeParameterList (ts : List Token) : List String × List Token :=
  if startsWith "<" ts then readTypeParameters [] ts.tail else ([], ts)

theorem readTypeParameterList_suffix (ts : List Token) : (readTypeParameterList ts).2 <:+ ts := by
  rw [readTypeParameterList]
  split
  · exact (readTypeParameters_suffix _ _).trans (List.tail_suffix ts)
  · exact List.suffix_rfl

theorem readTypeParameterList_length (ts : List Token) :
    (readTypeParameterList ts).2.length ≤ ts.length :=
  (readTypeParameterList_suffix ..).length_le

/-- The base list behind its colon, `found` (last first) being read. A base may be followed by
constructor arguments. -/
def readBases (depth : Nat) (found : List WrittenType) (ts : List Token) :
    Except Fault (Reading (List WrittenType) ts) := do
  let read ← readType depth ts
  match present : read.type? with
  | none => return ⟨found.reverse, read.rest, read.bound⟩
  | some base =>
    have taken : (skipParameters read.rest).length < ts.length :=
      Nat.lt_of_le_of_lt (skipParameters_length read.rest) (read.shorter (present ▸ rfl))
    if startsWith "," (skipParameters read.rest) then
      have shorter : (skipParameters read.rest).tail.length < ts.length :=
        Nat.lt_of_le_of_lt (tail_length _) taken
      return (← readBases depth (base :: found) (skipParameters read.rest).tail).lift
        (Nat.le_of_lt shorter)
    else return ⟨(base :: found).reverse, skipParameters read.rest, Nat.le_of_lt taken⟩
termination_by ts.length

/-- Whether the head of a declaration ends here. -/
def endsHead (t : Token) : Bool :=
  t.isPunctuation "\x7b" || t.isPunctuation ";" || t.isPunctuation "\x7d"

structure Header where
  name : Token
  kind : DeclarationKind
  typeParameters : List String
  baseList : List WrittenType
deriving Repr

/-- The head of a type declaration behind its keyword. -/
def readHeader (depth : Nat) (keyword : String) (ts : List Token) :
    Except Fault (Reading (Option Header) ts) :=
  let kinded := declarationKind keyword ts
  have kinded_length : kinded.2.length ≤ ts.length := declarationKind_length keyword ts
  match kinded.1, named : kinded.2 with
  | some kind, name :: rest =>
    if name.isIdentifier then do
      let listed := readTypeParameterList rest
      let behind := skipParameters listed.2
      have bound : behind.length ≤ ts.length :=
        Nat.le_trans (skipParameters_length listed.2) <|
          Nat.le_trans (readTypeParameterList_length rest) <|
            length_of_eq_cons named (Nat.le_succ_of_le kinded_length)
      let bases : Reading (List WrittenType) behind ←
        if startsWith ":" behind then do
          let read ← readBases depth [] behind.tail
          pure (read.lift (tail_length behind))
        else pure ⟨[], behind, Nat.le_refl _⟩
      return ⟨some ⟨name, kind, listed.1, bases.value⟩, bases.rest.dropWhile (!endsHead ·),
        Nat.le_trans (List.dropWhile_suffix _).length_le (Nat.le_trans bases.bound bound)⟩
    else .ok ⟨none, skipMember 0 kinded.2, Nat.le_trans (skipMember_length _ _) kinded_length⟩
  | _, _ => .ok ⟨none, skipMember 0 kinded.2, Nat.le_trans (skipMember_length _ _) kinded_length⟩

end ConventionLint.Source
