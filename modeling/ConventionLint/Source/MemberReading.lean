import ConventionLint.Source.Declaration
import ConventionLint.Source.TypeReading

/-!
# Reading members

A member is read up to its name and the token behind it, which tells what it is; its body, its
accessors' bodies and its initialiser are skipped. What is no property, field or method is skipped
as a whole.
-/
namespace ConventionLint.Source

def modifierWords : List String :=
  ["public", "private", "protected", "internal", "static", "readonly", "const", "volatile",
   "abstract", "virtual", "override", "sealed", "new", "extern", "unsafe", "async", "partial",
   "ref", "required", "file", "fixed", "implicit", "explicit"]

/-- Whether a modifier word is something else here: a name before an equals sign or semicolon, an
expression `new(`, or the last token. -/
def endsModifiers (word : String) (rest : List Token) : Bool :=
  rest.isEmpty || startsWith "=" rest || startsWith ";" rest
    || (word = "new" && startsWith "(" rest)

/-- The modifiers that the tokens start with, and the tokens behind them. -/
def readModifiers : List Token → List String × List Token
  | [] => ([], [])
  | t :: rest =>
    if t.isIdentifier && modifierWords.contains t.text && !endsModifiers t.text rest then
      let (modifiers, behind) := readModifiers rest
      (t.text :: modifiers, behind)
    else ([], t :: rest)

theorem readModifiers_suffix (ts : List Token) : (readModifiers ts).2 <:+ ts := by
  induction ts with
  | nil => exact List.suffix_rfl
  | cons t ts ih =>
    rw [readModifiers]
    split
    · exact cons_suffix ih
    · exact List.suffix_rfl

theorem readModifiers_length (ts : List Token) : (readModifiers ts).2.length ≤ ts.length :=
  (readModifiers_suffix ..).length_le

theorem readModifiers_cons_length {t first : Token} {ts rest : List Token}
    (h : (readModifiers (t :: ts)).2 = first :: rest) : rest.length ≤ ts.length :=
  length_of_eq_cons h (readModifiers_length (t :: ts))

/-- What the accessor list of a property tells. -/
structure Accessors where
  setter : Option Setter
  /-- Some accessor was read. -/
  any : Bool
  /-- No accessor read has a body. -/
  bodiless : Bool
deriving DecidableEq, Repr

namespace Accessors

def none : Accessors := ⟨.none, false, true⟩

def add (a : Accessors) (keyword : String) (accessibility : Accessibility) (bodiless : Bool) :
    Accessors :=
  { setter :=
      if keyword = "set" then some ⟨accessibility, false⟩
      else if keyword = "init" then some ⟨accessibility, true⟩
      else a.setter
    any := true
    bodiless := a.bodiless && bodiless }

def auto (a : Accessors) : Bool :=
  a.any && a.bodiless

end Accessors

/-- Skips what stands behind an accessor's keyword, and tells whether that is no body. -/
def skipAccessorBody (ts : List Token) : Bool × List Token :=
  if startsWith ";" ts then (true, ts.tail)
  else if startsWith "\x7b" ts then (false, skipBalanced ts)
  else if startsWith "=>" ts then (false, skipStatement 0 ts)
  else (true, ts)

theorem skipAccessorBody_suffix (ts : List Token) : (skipAccessorBody ts).2 <:+ ts := by
  rw [skipAccessorBody]
  split
  · exact List.tail_suffix ts
  · split
    · exact skipBalanced_suffix ts
    · split
      · exact skipStatement_suffix 0 ts
      · exact List.suffix_rfl

theorem skipAccessorBody_length (ts : List Token) :
    (skipAccessorBody ts).2.length ≤ ts.length :=
  (skipAccessorBody_suffix ..).length_le

/-- Reads accessors behind their opening brace through the closing one. An accessor is as accessible
as its modifiers say, else as the property. -/
def readAccessors (property : Accessibility) (found : Accessors) (ts : List Token) :
    Accessors × List Token :=
  match ts with
  | [] => (found, [])
  | t :: rest =>
    if t.isPunctuation "\x7d" then (found, rest)
    else if t.isPunctuation "[" then readAccessors property found (skipBalanced (t :: rest))
    else
      let modified := readModifiers (t :: rest)
      match _behind : modified.2 with
      | [] => (found, [])
      | keyword :: body =>
        if keyword.isIdentifier then
          let skipped := skipAccessorBody body
          let accessibility := (Accessibility.ofModifiers modified.1).getD property
          readAccessors property (found.add keyword.text accessibility skipped.1) skipped.2
        else readAccessors property found body
termination_by ts.length
decreasing_by
  · exact Nat.lt_succ_of_le (skipBalanced_cons_length t rest)
  · exact Nat.lt_succ_of_le
      (Nat.le_trans (skipAccessorBody_length body) (readModifiers_cons_length _behind))
  · exact Nat.lt_succ_of_le (readModifiers_cons_length _behind)

/-- The accessors of a property and, behind them, its initialiser. -/
def readAccessorList (property : Accessibility) (ts : List Token) : Accessors × List Token :=
  let (accessors, rest) := readAccessors property .none ts.tail
  (accessors, if startsWith "=" rest then skipStatement 0 rest else rest)

/-- Whether the tokens start with the name of a further declarator. -/
def startsDeclarator : List Token → Bool
  | name :: rest =>
    name.isIdentifier && (startsWith "=" rest || startsWith "," rest || startsWith ";" rest)
  | [] => false

/-- The further declarators of a field behind its first name, through the semicolon that ends
them. A name behind a comma outside brackets is one when an equals sign, a comma or a semicolon
follows. -/
def readDeclarators (inner : Nat) (found : List Token) (ts : List Token) :
    List Token × List Token :=
  match ts with
  | [] => (found.reverse, [])
  | t :: rest =>
    if inner = 0 && t.isPunctuation ";" then (found.reverse, rest)
    else if inner = 0 && t.isPunctuation "\x7d" then (found.reverse, t :: rest)
    else if inner = 0 && t.isPunctuation "," then
      match rest with
      | name :: behind =>
        if startsDeclarator (name :: behind) then readDeclarators 0 (name :: found) behind
        else readDeclarators 0 found (name :: behind)
      | [] => (found.reverse, [])
    else if t.opens then readDeclarators (inner + 1) found rest
    else if t.closes then readDeclarators (inner - 1) found rest
    else readDeclarators inner found rest
termination_by ts.length

/-- The last segment of a member name, the tokens behind it, and whether type parameters follow it.
The earlier segments name the interface that the member implements. -/
def readMemberName (name : Token) (ts : List Token) : Token × Bool × List Token :=
  let behind := if startsWith "<" ts then skipAngles 0 ts else ts
  match _shape : behind with
  | dot :: next :: rest =>
    if dot.isPunctuation "." && next.isIdentifier then readMemberName next rest
    else (name, startsWith "<" ts && !dot.isPunctuation ".", behind)
  | rest => (name, startsWith "<" ts && !startsWith "." rest, behind)
termination_by ts.length
decreasing_by
  have : behind.length ≤ ts.length := by
    simp only [behind]
    split
    · exact skipAngles_length 0 ts
    · exact Nat.le_refl _
  simp only [_shape, List.length_cons] at this
  omega

/-- What a member needs to know of the type that declares it. -/
structure Owner where
  name : String
  kind : DeclarationKind
deriving DecidableEq, Repr

def Owner.defaultAccessibility (owner : Owner) : Accessibility :=
  if owner.kind = .interface then .publicAccess else .privateAccess

/-- Whether a member starts here that declares no property, field or method: a finaliser, an event,
an operator or a constructor. -/
def startsUnlisted (owner : Owner) (ts : List Token) : Bool :=
  startsWith "~" ts || startsWithWord "event" ts || startsWithWord "operator" ts
    || (startsWithWord owner.name ts && startsWith "(" ts.tail)

/-- The member named by `name`, as the tokens behind its name tell. -/
def readNamedMember (owner : Owner) (modifiers : List String) (name : Token) (generic : Bool)
    (ts : List Token) : List MemberDeclaration × List Token :=
  let accessibility := (Accessibility.ofModifiers modifiers).getD owner.defaultAccessibility
  let member := fun (t : Token) (kind : MemberDeclarationKind) =>
    (⟨t.text, kind, accessibility, t.position⟩ : MemberDeclaration)
  if generic || startsWith "(" ts then ([member name .method], skipMember 0 ts)
  else if startsWith "\x7b" ts then
    let abstractOnly := owner.kind = .interface || modifiers.contains "abstract"
      || modifiers.contains "extern"
    let (accessors, rest) := readAccessorList accessibility ts
    ([member name (.property accessors.setter (accessors.auto && !abstractOnly))], rest)
  else if startsWith "=>" ts then ([member name (.property none false)], skipMember 0 ts)
  else if startsWith "=" ts || startsWith "," ts || startsWith ";" ts then
    let (further, rest) := readDeclarators 0 [] ts
    ((name :: further).map (member · .field), rest)
  else ([], skipMember 0 ts)

/-- Reads a member behind its type, if `typed`, or skips what is none. -/
def readTypedMember (owner : Owner) (modifiers : List String) (typed : Bool) :
    List Token → List MemberDeclaration × List Token
  | [] => ([], [])
  | name :: rest =>
    if typed && name.isIdentifier && !name.isWord "operator" && !name.isWord "this" then
      let (last, generic, behind) := readMemberName name rest
      readNamedMember owner modifiers last generic behind
    else ([], skipMember 0 (name :: rest))

/-- Reads one member behind its modifiers, or skips what is none. -/
def readMember (owner : Owner) (depth : Nat) (modifiers : List String) (ts : List Token) :
    Except Fault (List MemberDeclaration × List Token) :=
  if ts.isEmpty || startsWith "\x7d" ts then .ok ([], ts)
  else if startsUnlisted owner ts then .ok ([], skipMember 0 ts)
  else
    (readType depth ts).map fun read =>
      readTypedMember owner modifiers read.type?.isSome read.rest

theorem readAccessors_suffix (property : Accessibility) (found : Accessors) (ts : List Token) :
    (readAccessors property found ts).2 <:+ ts := by
  fun_induction readAccessors property found ts with
  | case1 => exact List.suffix_rfl
  | case2 => exact List.suffix_cons _ _
  | case3 found t rest _ _ ih => exact ih.trans (skipBalanced_suffix (t :: rest))
  | case4 => exact List.nil_suffix
  | case5 found t rest _ _ _ keyword body behind _ skipped _ ih =>
    have bodies : keyword :: body <:+ t :: rest := behind ▸ readModifiers_suffix (t :: rest)
    exact (ih.trans (skipAccessorBody_suffix body)).trans ((List.suffix_cons _ _).trans bodies)
  | case6 found t rest _ _ _ keyword body behind _ ih =>
    have bodies : keyword :: body <:+ t :: rest := behind ▸ readModifiers_suffix (t :: rest)
    exact ih.trans ((List.suffix_cons _ _).trans bodies)

theorem readAccessorList_suffix (property : Accessibility) (ts : List Token) :
    (readAccessorList property ts).2 <:+ ts := by
  have accessors : (readAccessors property .none ts.tail).2 <:+ ts :=
    (readAccessors_suffix property .none ts.tail).trans (List.tail_suffix ts)
  rw [readAccessorList]
  dsimp only
  split
  · exact (skipStatement_suffix 0 _).trans accessors
  · exact accessors

theorem readDeclarators_suffix (inner : Nat) (found ts : List Token) :
    (readDeclarators inner found ts).2 <:+ ts := by
  fun_induction readDeclarators inner found ts with
  | case1 => exact List.suffix_rfl
  | case2 => exact List.suffix_cons _ _
  | case3 => exact List.suffix_rfl
  | case4 _ _ _ _ _ _ _ _ _ ih => exact cons_suffix (cons_suffix ih)
  | case5 _ _ _ _ _ _ _ _ _ ih => exact cons_suffix ih
  | case6 => exact List.nil_suffix
  | case7 _ _ _ _ _ _ _ _ ih => exact cons_suffix ih
  | case8 _ _ _ _ _ _ _ _ _ ih => exact cons_suffix ih
  | case9 _ _ _ _ _ _ _ _ _ ih => exact cons_suffix ih

theorem nameArguments_suffix (ts : List Token) :
    (if startsWith "<" ts then skipAngles 0 ts else ts) <:+ ts := by
  split
  · exact skipAngles_suffix 0 ts
  · exact List.suffix_rfl

theorem readMemberName_suffix (name : Token) (ts : List Token) :
    (readMemberName name ts).2.2 <:+ ts := by
  fun_induction readMemberName name ts with
  | case1 name ts behind dot next rest shape _ ih =>
    have ending : dot :: next :: rest <:+ ts := shape ▸ nameArguments_suffix ts
    exact (ih.trans (List.suffix_cons next rest)).trans ((List.suffix_cons dot _).trans ending)
  | case2 name ts => exact nameArguments_suffix ts
  | case3 name ts => exact nameArguments_suffix ts

theorem readNamedMember_suffix (owner : Owner) (modifiers : List String) (name : Token)
    (generic : Bool) (ts : List Token) :
    (readNamedMember owner modifiers name generic ts).2 <:+ ts := by
  unfold readNamedMember
  dsimp only
  repeat' split
  all_goals first
    | exact skipMember_suffix 0 ts
    | exact readAccessorList_suffix _ ts
    | exact readDeclarators_suffix 0 [] ts

theorem readTypedMember_suffix (owner : Owner) (modifiers : List String) (typed : Bool)
    (ts : List Token) : (readTypedMember owner modifiers typed ts).2 <:+ ts := by
  cases ts with
  | nil => exact List.suffix_rfl
  | cons name rest =>
    rw [readTypedMember]
    split
    · exact cons_suffix ((readNamedMember_suffix ..).trans (readMemberName_suffix name rest))
    · exact skipMember_suffix 0 _

theorem readTypedMember_length (owner : Owner) (modifiers : List String) (typed : Bool)
    (ts : List Token) : (readTypedMember owner modifiers typed ts).2.length ≤ ts.length :=
  (readTypedMember_suffix ..).length_le

/-- Tokens are taken whenever the surrounding body does not end at once. -/
theorem readMember_shorter {owner : Owner} {depth : Nat} {modifiers : List String} {t : Token}
    {ts : List Token} {found : List MemberDeclaration × List Token}
    (h : readMember owner depth modifiers (t :: ts) = .ok found)
    (inside : t.isPunctuation "\x7d" = false) : found.2.length ≤ ts.length := by
  have skipped : (skipMember 0 (t :: ts)).length ≤ ts.length := skipMember_shorter ts inside
  unfold readMember at h
  simp only [List.isEmpty_cons, startsWith, List.head?_cons, Option.any_some, inside, Bool.or_self,
    Bool.false_eq_true, ↓reduceIte] at h
  split at h
  · obtain rfl := Except.ok.inj h
    exact skipped
  · obtain ⟨read, hr, rfl⟩ : ∃ read, readType depth (t :: ts) = .ok read ∧
        readTypedMember owner modifiers read.type?.isSome read.rest = found := by
      cases hr : readType depth (t :: ts) with
      | error e => rw [hr] at h; cases h
      | ok read => rw [hr] at h; exact ⟨read, rfl, Except.ok.inj h⟩
    cases typed : read.type?.isSome with
    | true =>
      have bound := readTypedMember_length owner modifiers true read.rest
      have taken := read.shorter typed
      simp only [List.length_cons] at taken
      omega
    | false =>
      have rest_eq := readType_rest_of_none hr (by simpa using typed)
      have bound := readTypedMember_length owner modifiers false read.rest
      have passed : skipGlobal (t :: ts) = ts.tail ∨ skipGlobal (t :: ts) = t :: ts := by
        unfold skipGlobal
        split <;> simp
      rw [rest_eq] at bound ⊢
      rcases passed with passed | passed <;> rw [passed] at bound ⊢
      · simp only [List.length_tail] at bound
        omega
      · simpa [readTypedMember] using skipped

end ConventionLint.Source
