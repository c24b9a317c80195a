/-!
# Cursors

A cursor is a text that is being read, with the place of its first character in the whole. Lines end
in a newline, a carriage return or both, or in one of three Unicode characters; two of these stand
for themselves in scalars, the rest for a newline.
-/
namespace ConventionLint.Yaml

def isBreak (c : Char) : Bool :=
  c = '\n' || c = '\r' || c = '\x85' || c = '\u2028' || c = '\u2029'

def isSpace (c : Char) : Bool :=
  c = ' ' || c = '\t'

/-- A character of an anchor, a tag handle or a directive's name. -/
def isWord (c : Char) : Bool :=
  c.isAlphanum || c = '_' || c = '-'

/-- A character that may occur in a document. -/
def isAllowed (c : Char) : Bool :=
  c = '\t' || c = '\n' || c = '\r' || (' ' ≤ c && c ≤ '~') || c = '\x85'
    || ('\xa0' ≤ c && c ≤ '\ufffd') || 0x10000 ≤ c.toNat

/-- What a line break stands for in a scalar. -/
def foldedBreak (c : Char) : Char :=
  if c = '\u2028' || c = '\u2029' then c else '\n'

structure Mark where
  index : Nat
  line : Nat
  column : Nat
deriving DecidableEq, Repr

namespace Mark

def start : Mark := ⟨0, 0, 0⟩

/-- The place behind characters of the same line. -/
def skip (m : Mark) (n : Nat) : Mark :=
  { m with index := m.index + n, column := m.column + n }

/-- The place behind a line break of so many characters. -/
def nextLine (m : Mark) (n : Nat) : Mark :=
  ⟨m.index + n, m.line + 1, 0⟩

end Mark

structure Cursor where
  mark : Mark
  rest : List Char

/-- Whether a text is at its end, or blank or broken where it starts. -/
def endsWord : List Char → Bool
  | [] => true
  | c :: _ => isSpace c || isBreak c

/-- Whether a line starts with the mark of a document's start or end. -/
def isDocumentMark (column : Nat) : List Char → Bool
  | '-' :: '-' :: '-' :: rest => column = 0 && endsWord rest
  | '.' :: '.' :: '.' :: rest => column = 0 && endsWord rest
  | _ => false

namespace Cursor

def ofText (s : List Char) : Cursor := ⟨.start, s⟩

def skip (c : Cursor) (n : Nat) : Cursor :=
  ⟨c.mark.skip n, c.rest.drop n⟩

/-- Passes the line break that the cursor stands at, if it stands at one. -/
def skipBreak (c : Cursor) : Cursor :=
  match c.rest with
  | '\r' :: '\n' :: rest => ⟨c.mark.nextLine 2, rest⟩
  | b :: rest => if isBreak b then ⟨c.mark.nextLine 1, rest⟩ else c
  | [] => c

/-- The characters of the line for which a test holds, and the place behind them. -/
def span (p : Char → Bool) (c : Cursor) : List Char × Cursor :=
  let found := c.rest.takeWhile p
  (found, c.skip found.length)

def skipWhile (p : Char → Bool) (c : Cursor) : Cursor :=
  (c.span p).2

def skipSpaces (c : Cursor) : Cursor :=
  c.skipWhile isSpace

def skipComment (c : Cursor) : Cursor :=
  if c.rest.head? = some '#' then c.skipWhile (!isBreak ·) else c

/-- The rest of a line on which only blanks and a comment may follow. -/
def finishLine (c : Cursor) : Option Cursor :=
  let behind := c.skipSpaces.skipComment
  match behind.rest with
  | [] => some behind
  | b :: _ => if isBreak b then some behind.skipBreak else none

end Cursor

end ConventionLint.Yaml
