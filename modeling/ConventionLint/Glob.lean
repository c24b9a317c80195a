/-!
# Glob patterns

`?` stands for any character, `*` for any text, a bracketed class for one of its characters (or,
with `!`, none of them), and `**` as a whole component for any number of components. Slashes are
nothing special to the other wildcards. `matchAll` says what it means to match, and `isMatch` gives
the same answer in a time that does not explode.
-/
namespace ConventionLint.Glob

/-- A range of characters; a single character is a range of one. -/
structure Span where
  low : Char
  high : Char
deriving DecidableEq, Repr

def Span.holds (s : Span) (c : Char) : Bool :=
  s.low ≤ c && c ≤ s.high

inductive Token where
  | literal (c : Char)
  | anyCharacter
  | oneOf (spans : List Span)
  | noneOf (spans : List Span)
  /-- Any text. -/
  | any
  /-- Any number of whole components. -/
  | components
deriving DecidableEq, Repr

inductive FaultCause where
  | wildcards
  | recursiveWildcards
  | invalidRange
deriving DecidableEq, Repr

/-- Why a text is no pattern, and at which character that shows. -/
structure Fault where
  cause : FaultCause
  index : Nat
deriving DecidableEq, Repr

def FaultCause.message : FaultCause → String
  | .wildcards => "wildcards are either regular \x60*\x60 or recursive \x60**\x60"
  | .recursiveWildcards => "recursive wildcards must form a single path component"
  | .invalidRange => "invalid range pattern"

def Fault.message (f : Fault) : String :=
  "Pattern syntax error near position " ++ f.index.repr ++ ": " ++ f.cause.message

/-- The spans of a class: `x-y` is a range, any other character stands for itself. -/
def spans : List Char → List Span
  | a :: '-' :: b :: rest => ⟨a, b⟩ :: spans rest
  | a :: rest => ⟨a, a⟩ :: spans rest
  | [] => []

/-- The content of a class, whose first character is never the closing bracket, and the number of
characters through that bracket. -/
def classContent : List Char → Option (List Char × Nat)
  | [] => none
  | first :: rest =>
    let inner := rest.takeWhile (· ≠ ']')
    if inner.length < rest.length then some (first :: inner, inner.length + 2) else none

/-- The class behind an opening bracket, and how many characters it takes. -/
def classToken : List Char → Option (Token × Nat)
  | '!' :: rest => (classContent rest).map fun (content, n) => (.noneOf (spans content), n + 1)
  | rest => (classContent rest).map fun (content, n) => (.oneOf (spans content), n)

/-- Adds `**`, unless it would follow another behind the start. Tokens stand last first. -/
def addComponents : List Token → List Token
  | .components :: t :: ts => .components :: t :: ts
  | ts => .components :: ts

/-- Reads a pattern from character `index` on: `before` is the character before it, and `found`
(last first) was read. -/
def compileFrom (index : Nat) (before : Option Char) (found : List Token) (s : List Char) :
    Except Fault (List Token) :=
  match s with
  | [] => .ok found.reverse
  | '?' :: rest => compileFrom (index + 1) (some '?') (.anyCharacter :: found) rest
  | '*' :: '*' :: '*' :: _ => .error ⟨.wildcards, index + 2⟩
  | '*' :: '*' :: rest =>
    if before.any (· ≠ '/') then .error ⟨.recursiveWildcards, index - 1⟩
    else
      match rest with
      | [] => .ok (addComponents found).reverse
      | '/' :: behind => compileFrom (index + 3) (some '/') (addComponents found) behind
      | _ => .error ⟨.recursiveWildcards, index + 2⟩
  | '*' :: rest => compileFrom (index + 1) (some '*') (.any :: found) rest
  | '[' :: rest =>
    match classToken rest with
    | some (token, n) => compileFrom (index + 1 + n) (some ']') (token :: found) (rest.drop n)
    | none => .error ⟨.invalidRange, index⟩
  | c :: rest => compileFrom (index + 1) (some c) (.literal c :: found) rest
termination_by s.length
decreasing_by all_goals simp; try omega

/-- A syntax of patterns: the tokens of a text, unless it is no pattern. -/
abbrev Compiler := String → Except Fault (List Token)

/-- The tokens of a pattern. -/
def compile (pattern : String) : Except Fault (List Token) :=
  compileFrom 0 none [] pattern.toList

/-- Whether the token stands for one character, and for this one. -/
def Token.holds : Token → Char → Bool
  | .literal a, c => a = c
  | .anyCharacter, _ => true
  | .oneOf spans, c => spans.any (·.holds c)
  | .noneOf spans, c => !spans.any (·.holds c)
  | .any, _ | .components, _ => false

/-- The texts left once a number of whole components has been passed. -/
def behindComponents : List Char → List (List Char)
  | [] => []
  | c :: rest => if c = '/' then rest :: behindComponents rest else behindComponents rest

/-- A text and every text that it ends with. -/
def tails : List Char → List (List Char)
  | [] => [[]]
  | c :: rest => (c :: rest) :: tails rest

/-- Whether the tokens match a text from start to end. -/
def matchAll : List Token → List Char → Bool
  | [], s => s.isEmpty
  | [.components], _ => true
  | .components :: ts, s => matchAll ts s || (behindComponents s).any (matchAll ts)
  | .any :: ts, s => (tails s).any (matchAll ts)
  | _ :: _, [] => false
  | t :: ts, c :: s => t.holds c && matchAll ts s

/-- Whether an answer or a later one is positive. -/
def anyLater : List Bool → List Bool
  | [] => []
  | b :: bs =>
    let later := anyLater bs
    (b || later.headD false) :: later

/-- Whether the answer for some tail behind a slash is positive. -/
def anyBehindSlash : List Char → List Bool → List Bool
  | c :: s, _ :: bs =>
    let later := anyBehindSlash s bs
    ((c = '/' && bs.headD false) || later.headD false) :: later
  | _, _ => [false]

/-- Whether the token holds and the answer for the next tail is positive. -/
def oneBefore (t : Token) : List Char → List Bool → List Bool
  | c :: s, _ :: bs => (t.holds c && bs.headD false) :: oneBefore t s bs
  | _, _ => [false]

/-- Whether the tokens match each tail of a text. To try every length for every `*` takes long; the
answers for one more token in front come in one pass from those for the tokens behind. -/
def matchTails : List Token → List Char → List Bool
  | [], s => (tails s).map (·.isEmpty)
  | [.components], s => (tails s).map fun _ => true
  | .components :: ts, s =>
    let answers := matchTails ts s
    List.zipWith (· || ·) answers (anyBehindSlash s answers)
  | .any :: ts, s => anyLater (matchTails ts s)
  | t :: ts, s => oneBefore t s (matchTails ts s)

def isMatch (ts : List Token) (s : List Char) : Bool :=
  (matchTails ts s).headD false

theorem headD_map_tails (p : List Char → Bool) (s : List Char) :
    ((tails s).map p).headD false = p s := by
  cases s <;> rfl

theorem anyLater_map_tails (p : List Char → Bool) (s : List Char) :
    anyLater ((tails s).map p) = (tails s).map fun u => (tails u).any p := by
  induction s with
  | nil => simp [tails, anyLater]
  | cons c s ih =>
    simp only [tails, List.map_cons, anyLater, ih, headD_map_tails, List.any_cons]

theorem anyBehindSlash_map_tails (p : List Char → Bool) (s : List Char) :
    anyBehindSlash s ((tails s).map p) = (tails s).map fun u => (behindComponents u).any p := by
  induction s with
  | nil => simp [tails, anyBehindSlash, behindComponents]
  | cons c s ih =>
    simp only [tails, List.map_cons, anyBehindSlash, ih, headD_map_tails, behindComponents]
    by_cases h : c = '/' <;> simp [h]

theorem oneBefore_map_tails (t : Token) (p : List Char → Bool) (s : List Char) :
    oneBefore t s ((tails s).map p) = (tails s).map fun
      | [] => false
      | c :: u => t.holds c && p u := by
  induction s with
  | nil => simp [tails, oneBefore]
  | cons c s ih => simp only [tails, List.map_cons, oneBefore, ih, headD_map_tails]

theorem matchTails_eq (ts : List Token) (s : List Char) :
    matchTails ts s = (tails s).map (matchAll ts) := by
  fun_induction matchTails ts s with
  | case1 => rfl
  | case2 => rfl
  | case3 ts s nonempty answers ih =>
    have known : answers = (tails s).map (matchAll ts) := ih
    rw [known, anyBehindSlash_map_tails, List.zipWith_map, List.zipWith_self]
    refine List.map_congr_left fun u _ => ?_
    rw [matchAll]
    exact nonempty
  | case4 ts s ih =>
    rw [ih, anyLater_map_tails]
    refine List.map_congr_left fun u _ => ?_
    rw [matchAll]
  | case5 t ts s _ _ _ ih =>
    rw [ih, oneBefore_map_tails]
    refine List.map_congr_left fun u _ => ?_
    cases u <;> rw [matchAll] <;> assumption

theorem isMatch_eq (ts : List Token) (s : List Char) : isMatch ts s = matchAll ts s := by
  rw [isMatch, matchTails_eq, headD_map_tails]

/-- How patterns are read and held against texts. -/
structure Dialect where
  compile : Compiler
  isMatch : List Token → List Char → Bool

def Dialect.standard : Dialect := ⟨Glob.compile, Glob.isMatch⟩

end ConventionLint.Glob
