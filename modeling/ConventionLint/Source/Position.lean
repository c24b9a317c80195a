import ConventionLint.Path

/-!
# Places in a source text

Lines and columns count from one, and a column counts characters. A position is moved by the text
that is read: a newline starts the next line, any other character is one column. A fault tells why a
text has no declarations to offer, and where the reader was when it found out.
-/
namespace ConventionLint

structure Position where
  line : Nat
  column : Nat
deriving DecidableEq, Repr

namespace Position

def start : Position := ⟨1, 1⟩

def advance (p : Position) (c : Char) : Position :=
  if c = '\n' then ⟨p.line + 1, 1⟩ else ⟨p.line, p.column + 1⟩

/-- The position behind a text that starts at `p`. -/
def after (p : Position) (text : List Char) : Position :=
  text.foldl advance p

@[simp] theorem after_nil (p : Position) : p.after [] = p := rfl

@[simp] theorem after_cons (p : Position) (c : Char) (text : List Char) :
    p.after (c :: text) = (p.advance c).after text := rfl

theorem after_append (p : Position) (a b : List Char) :
    p.after (a ++ b) = (p.after a).after b := by
  simp [after, List.foldl_append]

end Position

/-- A position in a file. -/
structure Location where
  file : Path
  line : Nat
  column : Nat
deriving DecidableEq, Repr

namespace Location

/-- Only a positive line and column in a named file can be shown to anybody. -/
def isValid (l : Location) : Bool :=
  0 < l.line && 0 < l.column && !l.file.text.isEmpty

def render (l : Location) : String :=
  l.file.text ++ ":" ++ l.line.repr ++ ":" ++ l.column.repr

protected def compare (a b : Location) : Ordering :=
  (compare a.file b.file).then ((compare a.line b.line).then (compare a.column b.column))

instance : Ord Location := ⟨Location.compare⟩

end Location

end ConventionLint

namespace ConventionLint.Source

inductive FaultCause where
  | unterminatedComment
  | unterminatedString
  | unterminatedRawString
  | newlineInString
  | nestedTooDeeply
deriving DecidableEq, Repr

def FaultCause.message : FaultCause → String
  | .unterminatedComment => "unterminated block comment"
  | .unterminatedString => "unterminated string literal"
  | .unterminatedRawString => "unterminated raw string literal"
  | .newlineInString => "newline in string literal"
  | .nestedTooDeeply => "declarations nested too deeply"

structure Fault where
  cause : FaultCause
  line : Nat
  column : Nat
deriving DecidableEq, Repr

def Fault.message (f : Fault) : String :=
  f.cause.message ++ " at line " ++ f.line.repr ++ ", column " ++ f.column.repr

end ConventionLint.Source
