import ConventionLint.Source.Literal
import ConventionLint.Text.CharClass
import ConventionLint.Text.Split

/-!
# Pieces of a source text

A source text is cut into pieces without loss: white space, comments, directive lines and lexemes.
Every piece is found by a length, so that the pieces one after another are the text again.
-/
namespace ConventionLint.Source

inductive LexemeKind where
  | identifier
  | literal
  | punctuation
deriving DecidableEq, Repr

inductive PieceKind where
  | newline
  | blank
  | comment
  /-- A line that starts with a hash sign, white space apart. -/
  | directive
  | lexeme (kind : LexemeKind)
deriving DecidableEq, Repr

structure Piece where
  kind : PieceKind
  text : List Char
deriving DecidableEq, Repr

/-- Where cutting failed: the cause and the number of characters before it. -/
structure CutFault where
  cause : FaultCause
  passed : Nat
deriving DecidableEq, Repr

def isWordStart (c : Char) : Bool :=
  c = '_' || Text.isAlphabetic c

def isWordRest (c : Char) : Bool :=
  c = '_' || Text.isAlphabetic c || Text.isNumeric c

def wordLength (s : List Char) : Nat :=
  (s.takeWhile isWordRest).length

/-- The length of a number behind its first digit; a dot belongs to it when a digit follows. -/
def numberLength (passed : Nat) : List Char → Nat
  | [] => passed
  | c :: rest =>
    if isWordRest c || (c = '.' && rest.head?.any Char.isDigit) then
      numberLength (passed + 1) rest
    else passed

/-- The length of the rest of a line. -/
def lineLength (s : List Char) : Nat :=
  (s.takeWhile (· ≠ '\n')).length

/-- The length of a comment behind its opening, closing mark included. -/
def commentLength (passed : Nat) : List Char → Option Nat
  | [] => none
  | '*' :: '/' :: _ => some (passed + 2)
  | _ :: rest => commentLength (passed + 1) rest

/-- The kind of the piece that starts with `c`, and how many characters behind `c` belong to it. -/
def pieceAt (lineStart : Bool) (c : Char) (rest : List Char) :
    Except (FaultCause × Nat) (PieceKind × Nat) :=
  if c = '\n' then .ok (.newline, 0)
  else if Text.isBlank c then .ok (.blank, 0)
  else if c = '#' && lineStart then .ok (.directive, lineLength rest)
  else if c = '/' && rest.head? = some '/' then .ok (.comment, lineLength rest)
  else if c = '/' && rest.head? = some '*' then
    match commentLength 0 rest.tail with
    | some n => .ok (.comment, n + 1)
    | none => .error (.unterminatedComment, rest.length + 1)
  else if c = '"' then
    (stringLength [] (c :: rest)).map fun n => (.lexeme .literal, n - 1)
  else
    match stringMarks (c :: rest) with
    | some marks =>
      (stringLength marks (c :: rest)).map fun n => (.lexeme .literal, n - 1)
    | none =>
      if c = '\'' then .ok (.lexeme .literal, characterLength 0 rest)
      else if c = '@' && rest.head?.any isWordStart then .ok (.lexeme .identifier, wordLength rest)
      else if isWordStart c then .ok (.lexeme .identifier, wordLength rest)
      else if c.isDigit then .ok (.lexeme .literal, numberLength 0 rest)
      else if c = '=' && rest.head? = some '>' then .ok (.lexeme .punctuation, 1)
      else if c = ':' && rest.head? = some ':' then .ok (.lexeme .punctuation, 1)
      else .ok (.lexeme .punctuation, 0)

/-- Whether only white space stands between the start of the line and the end of the piece. -/
def PieceKind.keepsLineStart (lineStart : Bool) : PieceKind → Bool
  | .newline => true
  | .blank | .directive => lineStart
  | .comment | .lexeme _ => false

/-- Cuts a text into pieces, `passed` characters and the pieces `done` (last first) being behind. -/
def cutFrom (passed : Nat) (lineStart : Bool) (done : List Piece) (s : List Char) :
    Except CutFault (List Piece) :=
  match s with
  | [] => .ok done.reverse
  | c :: rest =>
    match pieceAt lineStart c rest with
    | .error (cause, n) => .error ⟨cause, passed + n⟩
    | .ok (kind, n) =>
      cutFrom (passed + n + 1) (kind.keepsLineStart lineStart)
        (⟨kind, c :: rest.take n⟩ :: done) (rest.drop n)
termination_by s.length
decreasing_by simp only [List.length_cons, List.length_drop]; omega

/-- The pieces of a source text. -/
def pieces (s : List Char) : Except CutFault (List Piece) :=
  cutFrom 0 true [] s

end ConventionLint.Source
