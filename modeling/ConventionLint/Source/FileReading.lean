import ConventionLint.Source.TypeBodyReading
import ConventionLint.Text.Dotted

/-!
# Reading a source file

Namespaces, using directives and type declarations. A namespace that ends in a semicolon holds for
the rest of what surrounds it, one with braces for its body.
-/
namespace ConventionLint.Source

/-- The segments of a dotted name, and the tokens behind it. -/
def readDotted : List Token → List String × List Token
  | t :: dot :: next :: rest =>
    if t.isIdentifier then
      if dot.isPunctuation "." && next.isIdentifier then
        let (segments, behind) := readDotted (next :: rest)
        (t.text :: segments, behind)
      else ([t.text], dot :: next :: rest)
    else ([], t :: dot :: next :: rest)
  | t :: rest => if t.isIdentifier then ([t.text], rest) else ([], t :: rest)
  | [] => ([], [])

theorem readDotted_suffix (ts : List Token) : (readDotted ts).2 <:+ ts := by
  fun_induction readDotted ts with
  | case1 t dot next rest _ _ segments behind eq ih =>
    rw [eq] at ih
    exact cons_suffix (cons_suffix ih)
  | case2 => exact List.suffix_cons _ _
  | case4 => exact List.suffix_cons _ _
  | _ => exact List.suffix_rfl

/-- A dotted name, empty where there is none. -/
def readDottedName (ts : List Token) : String × List Token :=
  let (segments, rest) := readDotted (skipGlobal ts)
  (".".intercalate segments, rest)

theorem readDottedName_suffix (ts : List Token) : (readDottedName ts).2 <:+ ts :=
  (readDotted_suffix _).trans (skipGlobal_suffix ts)

theorem readDottedName_length (ts : List Token) : (readDottedName ts).2.length ≤ ts.length :=
  (readDottedName_suffix ..).length_le

theorem length_of_readDottedName {ts rest : List Token} {name : String}
    (h : readDottedName ts = (name, rest)) : rest.length ≤ ts.length := by
  simpa only [h] using readDottedName_length ts

/-- What was read of a file, last first. -/
structure Contents where
  imports : List String
  aliases : List UsingAlias
  types : List TypeDeclaration
deriving Repr

namespace Contents

def empty : Contents := ⟨[], [], []⟩

def addImport (c : Contents) (name : String) : Contents :=
  if name = "" then c else { c with imports := name :: c.imports }

def addAlias (c : Contents) (name : String) (target : Option WrittenType) : Contents :=
  { c with aliases := (target.map (⟨name, ·⟩)).toList ++ c.aliases }

def addType (c : Contents) (type : Option TypeDeclaration) : Contents :=
  { c with types := type.toList ++ c.types }

end Contents

/-- Whether what follows `using` is a directive that imports a namespace, and no static import or
statement. -/
def startsImport (ts : List Token) : Bool :=
  startsWithIdentifier ts && !startsWithWord "static" ts

/-- The name of an alias and the tokens behind its equals sign. -/
def aliasBehind : List Token → Option (String × List Token)
  | name :: equals :: rest =>
    if name.isIdentifier && equals.isPunctuation "=" then some (name.text, rest) else none
  | _ => none

theorem aliasBehind_suffix {ts rest : List Token} {name : String}
    (h : aliasBehind ts = some (name, rest)) : rest <:+ ts := by
  unfold aliasBehind at h
  split at h
  · split at h
    · obtain ⟨-, rfl⟩ := Prod.mk.inj (Option.some.inj h)
      exact cons_suffix (List.suffix_cons _ _)
    · cases h
  · cases h

theorem aliasBehind_length {ts rest : List Token} {name : String}
    (h : aliasBehind ts = some (name, rest)) : rest.length ≤ ts.length :=
  (aliasBehind_suffix h).length_le

/-- Reads a using directive behind its keyword. -/
def readUsing (depth : Nat) (found : Contents) (ts : List Token) :
    Except Fault (Reading Contents ts) :=
  match aliased : aliasBehind ts with
  | some (name, rest) => do
    let read ← readType depth rest
    return ⟨found.addAlias name read.type?, skipMember 0 read.rest,
      Nat.le_trans (skipMember_length _ _)
        (Nat.le_trans read.bound (aliasBehind_length aliased))⟩
  | none =>
    if startsImport ts then
      .ok ⟨found.addImport (readDottedName ts).1, skipOne ";" (readDottedName ts).2,
        Nat.le_trans (skipOne_length _ _) (readDottedName_length ts)⟩
    else .ok ⟨found, skipMember 0 ts, skipMember_length _ _⟩

/-- The name of a namespace inside another. -/
def innerNamespace (outer : Option String) (name : String) : String :=
  match outer with
  | some outer => outer ++ "." ++ name
  | none => name

/-- Reads the contents of a namespace or file, `found` being read. A closing brace ends a namespace
with braces and is passed over elsewhere. -/
def readNamespace (depth : Nat) (qualifier : Option String) (braced : Bool) (found : Contents)
    (ts : List Token) : Except Fault (Reading Contents ts) :=
  match ts with
  | [] => .ok ⟨found, [], Nat.le_refl _⟩
  | t :: rest =>
    if t.isPunctuation "\x7d" then
      if braced then .ok ⟨found, rest, Nat.le_succ _⟩
      else do return (← readNamespace depth qualifier braced found rest).lift (Nat.le_succ _)
    else if t.isPunctuation "[" then do
      have grouped : (skipBalanced (t :: rest)).length ≤ rest.length :=
        skipBalanced_cons_length t rest
      return (← readNamespace depth qualifier braced found (skipBalanced (t :: rest))).lift
        (Nat.le_succ_of_le grouped)
    else if t.isWord "global" && startsWithWord "using" rest then do
      return (← readNamespace depth qualifier braced found rest).lift (Nat.le_succ _)
    else if t.isWord "using" then do
      let read ← readUsing depth found rest
      have read_length := read.bound
      return (← readNamespace depth qualifier braced read.value read.rest).lift
        (Nat.le_succ_of_le read_length)
    else if t.isWord "namespace" then
      match named : readDottedName rest with
      | (name, behind) => do
        have named_length : behind.length ≤ rest.length := length_of_readDottedName named
        have inner_length : behind.tail.length ≤ rest.length :=
          Nat.le_trans (tail_length behind) named_length
        let full := innerNamespace qualifier name
        if startsWith ";" behind then
          return (← readNamespace depth (some full) braced found behind.tail).lift
            (Nat.le_succ_of_le inner_length)
        else if startsWith "\x7b" behind then
          let inner ← enter depth behind.tail
          let body ← readNamespace inner (some full) true found behind.tail
          have body_length : body.rest.length ≤ rest.length := Nat.le_trans body.bound inner_length
          return (← readNamespace depth qualifier braced body.value body.rest).lift
            (Nat.le_succ_of_le body_length)
        else
          have skipped : (skipMember 0 behind).length ≤ rest.length :=
            Nat.le_trans (skipMember_length _ _) named_length
          return (← readNamespace depth qualifier braced found (skipMember 0 behind)).lift
            (Nat.le_succ_of_le skipped)
    else
      let modified := readModifiers (t :: rest)
      match behind : modified.2 with
      | [] => .ok ⟨found, [], Nat.zero_le _⟩
      | first :: more =>
        have first_length : more.length ≤ rest.length := readModifiers_cons_length behind
        if ended : first.isPunctuation "\x7d" then
          if braced then .ok ⟨found, more, Nat.le_succ_of_le first_length⟩
          else do
            return (← readNamespace depth qualifier braced found more).lift
              (Nat.le_succ_of_le first_length)
        else if startsDeclaration (first :: more) then do
          let declared ← readDeclaration depth qualifier modified.1 first.text more
          have declared_length : declared.rest.length ≤ rest.length :=
            Nat.le_trans declared.bound first_length
          return (← readNamespace depth qualifier braced (found.addType declared.value)
            declared.rest).lift (Nat.le_succ_of_le declared_length)
        else do
          have skipped : (skipMember 0 (first :: more)).length ≤ rest.length :=
            Nat.le_trans (skipMember_shorter more (eq_false_of_ne_true ended)) first_length
          return (← readNamespace depth qualifier braced found (skipMember 0 (first :: more))).lift
            (Nat.le_succ_of_le skipped)
termination_by ts.length
decreasing_by all_goals simp only [List.length_cons]; omega

/-- The declarations among the tokens of a file. -/
def readFile (path : Path) (ts : List Token) : Except Fault SourceFile := do
  let read ← readNamespace 0 none false .empty ts
  let found := read.value
  return ⟨path, Text.dropRepeats found.imports.reverse, found.aliases.reverse, found.types.reverse⟩

end Source

/-- The declarations of a source text. -/
def SourceFile.scan (path : Path) (source : String) : Except Source.Fault SourceFile := do
  Source.readFile path (← Source.tokens source)

/-- Whether a file is a source file, going by the ending of its name in any case. -/
def Path.isSource (p : Path) : Bool :=
  p.extension.any fun ending => ending.toList.map Char.toLower = ['c', 's']

end ConventionLint
