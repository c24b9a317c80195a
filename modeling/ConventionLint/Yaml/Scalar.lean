import ConventionLint.Yaml.Cursor

/-!
# Scalars

Plain, quoted and block scalars. Inside a plain or quoted scalar a gap (blanks, and breaks with the
blanks around them) is folded: blanks alone stand for themselves, one break for a blank, and each
further break for itself. Block scalars keep their lines or fold them, and are chomped at the end.
-/
namespace ConventionLint.Yaml

inductive ScalarStyle where
  | plain
  | quoted
  | literal
  | folded
deriving DecidableEq, Repr

/-- Blanks and breaks between two words. -/
structure Gap where
  /-- Blanks before the first break, last first. -/
  blanks : List Char
  broken : Bool
  /-- The first break, unless it was escaped. -/
  first : Option Char
  /-- Further breaks, last first. -/
  more : List Char

namespace Gap

def none : Gap := ⟨[], false, .none, []⟩

/-- The gap behind an escaped break. -/
def escaped : Gap := ⟨[], true, .none, []⟩

def isNone (g : Gap) : Bool :=
  g.blanks.isEmpty && !g.broken

def addBlank (g : Gap) (c : Char) : Gap :=
  if g.broken then g else { g with blanks := c :: g.blanks }

def addBreak (g : Gap) (c : Char) : Gap :=
  if g.broken then { g with more := foldedBreak c :: g.more }
  else ⟨[], true, some (foldedBreak c), []⟩

/-- The first break of a gap or block, folded before further ones. -/
def fold (first : Option Char) (more : List Char) : List Char :=
  if first = some '\n' then (if more.isEmpty then [' '] else more) else more ++ first.toList

/-- What a gap stands for, last first. -/
def text (g : Gap) : List Char :=
  if g.broken then fold g.first g.more else g.blanks

end Gap

/-- A scalar that was read, and the text behind it. -/
structure ScalarReading where
  text : String
  cursor : Cursor
  /-- Whether the text goes on behind a line break. -/
  broken : Bool

def ScalarReading.of (reversed : List Char) (mark : Mark) (rest : List Char) (broken : Bool) :
    ScalarReading :=
  ⟨String.ofList reversed.reverse, ⟨mark, rest⟩, broken⟩

def isFlowIndicator (c : Char) : Bool :=
  c = ',' || c = '[' || c = ']' || c = '\x7b' || c = '\x7d'

/-- Whether a colon before these characters is refused inside a flow collection. -/
def clashesWithColon : List Char → Bool
  | [] => false
  | c :: _ => isFlowIndicator c || c = '?'

/-- Whether a plain scalar ends before a word. -/
def endsBeforeWord (flow : Bool) (margin : Nat) (gap : Gap) (mark : Mark) (s : List Char) : Bool :=
  !gap.isNone &&
    ((!flow && mark.column < margin) || isDocumentMark mark.column s || s.head? = some '#')

/-- Whether a plain scalar ends at a character inside a word. -/
def endsInWord (flow : Bool) (c : Char) (rest : List Char) : Bool :=
  (c = ':' && endsWord rest) || (flow && isFlowIndicator c)

/-- Reads a plain scalar on, `text` (last first) and then a gap having been read. In a block its
lines are indented by the margin at least. -/
def readPlain (flow : Bool) (margin : Nat) (mark : Mark) (gap : Gap) (text : List Char) :
    List Char → Option ScalarReading
  | [] => some (.of text mark [] gap.broken)
  | '\r' :: '\n' :: rest => readPlain flow margin (mark.nextLine 2) (gap.addBreak '\n') text rest
  | c :: rest =>
    if isBreak c then readPlain flow margin (mark.nextLine 1) (gap.addBreak c) text rest
    else if isSpace c then
      if gap.broken && mark.column < margin && c = '\t' then none
      else readPlain flow margin (mark.skip 1) (gap.addBlank c) text rest
    else if endsBeforeWord flow margin gap mark (c :: rest) then
      some (.of text mark (c :: rest) gap.broken)
    else if flow && c = ':' && clashesWithColon rest then none
    else if endsInWord flow c rest then some (.of text mark (c :: rest) gap.broken)
    else readPlain flow margin (mark.skip 1) .none (c :: (gap.text ++ text)) rest

/-- The character of an escape of one letter. -/
def escapedCharacter : Char → Option Char
  | '0' => some '\x00'
  | 'a' => some '\x07'
  | 'b' => some '\x08'
  | 't' | '\t' => some '\t'
  | 'n' => some '\n'
  | 'v' => some '\x0b'
  | 'f' => some '\x0c'
  | 'r' => some '\r'
  | 'e' => some '\x1b'
  | ' ' => some ' '
  | '"' => some '"'
  | '/' => some '/'
  | '\\' => some '\\'
  | 'N' => some '\x85'
  | '_' => some '\xa0'
  | 'L' => some '\u2028'
  | 'P' => some '\u2029'
  | _ => none

/-- How many hexadecimal digits an escape takes. -/
def escapeWidth : Char → Nat
  | 'x' => 2
  | 'u' => 4
  | 'U' => 8
  | _ => 0

def hexDigit? (c : Char) : Option Nat :=
  if c.isDigit then some (c.toNat - '0'.toNat)
  else if 'a' ≤ c && c ≤ 'f' then some (c.toNat - 'a'.toNat + 10)
  else if 'A' ≤ c && c ≤ 'F' then some (c.toNat - 'A'.toNat + 10)
  else none

/-- The character whose number hexadecimal digits give. -/
def hexCharacter (digits : List Char) : Option Char := do
  let value := (← digits.mapM hexDigit?).foldl (16 * · + ·) 0
  if h : value.isValidChar then some (Char.ofNatAux value h) else none

/-- The character of an escape, given what stands behind the backslash, and its length. -/
def readEscape : List Char → Option (Char × Nat)
  | [] => none
  | c :: rest =>
    match escapedCharacter c, escapeWidth c with
    | some e, _ => some (e, 1)
    | none, 0 => none
    | none, n =>
      if rest.length < n then none
      else (hexCharacter (rest.take n)).map (·, n + 1)

/-- Reads a scalar in single quotes on. -/
def readSingleQuoted (mark : Mark) (gap : Gap) (text : List Char) : List Char → Option ScalarReading
  | [] => none
  | '\r' :: '\n' :: rest => readSingleQuoted (mark.nextLine 2) (gap.addBreak '\n') text rest
  | '\'' :: '\'' :: rest =>
    readSingleQuoted (mark.skip 2) .none ('\'' :: (gap.text ++ text)) rest
  | '\'' :: rest => some (.of (gap.text ++ text) (mark.skip 1) rest false)
  | c :: rest =>
    if isBreak c then readSingleQuoted (mark.nextLine 1) (gap.addBreak c) text rest
    else if isSpace c then readSingleQuoted (mark.skip 1) (gap.addBlank c) text rest
    else if isDocumentMark mark.column (c :: rest) then none
    else readSingleQuoted (mark.skip 1) .none (c :: (gap.text ++ text)) rest

/-- Reads a scalar in double quotes on. -/
def readDoubleQuoted (mark : Mark) (gap : Gap) (text : List Char) (s : List Char) :
    Option ScalarReading :=
  match s with
  | [] => none
  | '\r' :: '\n' :: rest => readDoubleQuoted (mark.nextLine 2) (gap.addBreak '\n') text rest
  | '"' :: rest => some (.of (gap.text ++ text) (mark.skip 1) rest false)
  | '\\' :: '\r' :: '\n' :: rest =>
    readDoubleQuoted (mark.nextLine 3) .escaped (gap.text ++ text) rest
  | '\\' :: rest =>
    match rest with
    | [] => none
    | b :: behind =>
      if isBreak b then readDoubleQuoted (mark.nextLine 2) .escaped (gap.text ++ text) behind
      else
        match readEscape (b :: behind) with
        | some (e, n) =>
          readDoubleQuoted (mark.skip (n + 1)) .none (e :: (gap.text ++ text))
            ((b :: behind).drop n)
        | none => none
  | c :: rest =>
    if isBreak c then readDoubleQuoted (mark.nextLine 1) (gap.addBreak c) text rest
    else if isSpace c then readDoubleQuoted (mark.skip 1) (gap.addBlank c) text rest
    else if isDocumentMark mark.column (c :: rest) then none
    else readDoubleQuoted (mark.skip 1) .none (c :: (gap.text ++ text)) rest
termination_by s.length
decreasing_by all_goals simp; try omega

inductive Chomping where
  | strip
  | clip
  | keep
deriving DecidableEq, Repr

structure BlockHeader where
  chomping : Chomping
  /-- The indentation written into the header. -/
  indentation : Option Nat

def readChomping (c : Cursor) : Option Chomping × Cursor :=
  match c.rest with
  | '-' :: _ => (some .strip, c.skip 1)
  | '+' :: _ => (some .keep, c.skip 1)
  | _ => (none, c)

/-- The digit of a header, which is never zero. -/
def readIndentation (c : Cursor) : Option (Option Nat × Cursor) :=
  match c.rest with
  | d :: _ =>
    if d = '0' then none
    else if d.isDigit then some (some (d.toNat - '0'.toNat), c.skip 1)
    else some (none, c)
  | [] => some (none, c)

/-- A chomping mark and a digit in either order, and the rest of their line. -/
def readHeader (c : Cursor) : Option (BlockHeader × Cursor) := do
  let (before, c) := readChomping c
  let (indentation, c) ← readIndentation c
  let (chomping, c) :=
    if before.isNone && indentation.isSome then readChomping c else (before, c)
  return (⟨chomping.getD .clip, indentation⟩, ← c.finishLine)

/-- A block scalar up to its first line: blank lines (last first), and the indentation found. -/
structure BlockStart where
  breaks : List Char
  deepest : Nat
  cursor : Cursor

/-- Passes blank lines and the indentation of the first line. -/
def readBlockStart (mark : Mark) (breaks : List Char) (deepest : Nat) :
    List Char → Option BlockStart
  | [] => some ⟨breaks, max deepest mark.column, ⟨mark, []⟩⟩
  | '\r' :: '\n' :: rest =>
    readBlockStart (mark.nextLine 2) ('\n' :: breaks) (max deepest mark.column) rest
  | c :: rest =>
    if c = ' ' then readBlockStart (mark.skip 1) breaks deepest rest
    else if c = '\t' then none
    else if isBreak c then
      readBlockStart (mark.nextLine 1) (foldedBreak c :: breaks) (max deepest mark.column) rest
    else some ⟨breaks, max deepest mark.column, ⟨mark, c :: rest⟩⟩

/-- What was read of a block scalar. Lists stand last first. -/
structure BlockText where
  text : List Char
  /-- The break behind the last line. -/
  last : Option Char
  /-- The breaks of blank lines behind it. -/
  breaks : List Char
  /-- Whether the last line is indented further. -/
  indented : Bool

namespace BlockText

/-- Starts a line with a character. -/
def startLine (folds : Bool) (b : BlockText) (c : Char) : BlockText :=
  let between :=
    if folds && b.last = some '\n' && !b.indented && !isSpace c then Gap.fold b.last b.breaks
    else b.breaks ++ b.last.toList
  ⟨c :: (between ++ b.text), none, [], isSpace c⟩

def add (b : BlockText) (c : Char) : BlockText :=
  { b with text := c :: b.text }

def chomp (b : BlockText) : Chomping → List Char
  | .strip => b.text
  | .clip => b.last.toList ++ b.text
  | .keep => b.breaks ++ b.last.toList ++ b.text

end BlockText

/-- Reads the lines of a block scalar that are indented so far. `inLine` tells whether a line has
begun. -/
def readBlockLines (folds : Bool) (indentation : Nat) (inLine : Bool) (mark : Mark)
    (b : BlockText) : List Char → Option (BlockText × Cursor)
  | [] => some (b, ⟨mark, []⟩)
  | '\r' :: '\n' :: rest =>
    if inLine then
      readBlockLines folds indentation false (mark.nextLine 2) { b with last := some '\n' } rest
    else
      readBlockLines folds indentation false (mark.nextLine 2) { b with breaks := '\n' :: b.breaks }
        rest
  | c :: rest =>
    if inLine then
      if isBreak c then
        readBlockLines folds indentation false (mark.nextLine 1)
          { b with last := some (foldedBreak c) } rest
      else readBlockLines folds indentation true (mark.skip 1) (b.add c) rest
    else if mark.column < indentation && c = ' ' then
      readBlockLines folds indentation false (mark.skip 1) b rest
    else if mark.column < indentation && c = '\t' then none
    else if isBreak c then
      readBlockLines folds indentation false (mark.nextLine 1)
        { b with breaks := foldedBreak c :: b.breaks } rest
    else if mark.column = indentation then
      readBlockLines folds indentation true (mark.skip 1) (b.startLine folds c) rest
    else some (b, ⟨mark, c :: rest⟩)

/-- Reads a block scalar behind its indicator. Lines of the collection around it start before the
margin. -/
def readBlock (folds : Bool) (margin : Nat) (c : Cursor) : Option ScalarReading := do
  let (header, c) ← readHeader c
  let (b, c) ← match header.indentation with
    | some n => readBlockLines folds (margin - 1 + n) false c.mark ⟨[], none, [], false⟩ c.rest
    | none => do
      let start ← readBlockStart c.mark [] 0 c.rest
      readBlockLines folds (max start.deepest (max margin 1)) false start.cursor.mark
        ⟨[], none, start.breaks, false⟩ start.cursor.rest
  return .of (b.chomp header.chomping) c.mark c.rest true

end ConventionLint.Yaml
