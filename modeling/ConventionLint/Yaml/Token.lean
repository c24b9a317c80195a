import ConventionLint.Yaml.Scalar

/-!
# Tokens

The indicators, scalars and properties of a document, with the starts and ends of block collections
made explicit. Whether a node is a key shows only at the colon behind it, so a slot is left in front
of every node that may be one, and filled or dropped at the end.
-/
namespace ConventionLint.Yaml

inductive Token where
  | documentStart
  | documentEnd
  | version (major minor : Nat)
  /-- Declares what a tag handle stands for. -/
  | tagHandle (handle stem : String)
  | blockSequence
  | blockMapping
  | blockEnd
  | blockEntry
  | flowSequence
  | flowSequenceEnd
  | flowMapping
  | flowMappingEnd
  | flowEntry
  | key
  | value
  /-- An alias. -/
  | reference (name : String)
  | anchor (name : String)
  | tag (handle suffix : String)
  | scalar (text : String) (style : ScalarStyle)
deriving DecidableEq, Repr

def readNumber (c : Cursor) : Option (Nat × Cursor) :=
  let (digits, behind) := c.span Char.isDigit
  if digits.isEmpty || 9 < digits.length then none
  else (String.ofList digits).toNat?.map (·, behind)

def readVersion (c : Cursor) : Option (Token × Cursor) := do
  let (major, c) ← readNumber c
  if c.rest.head? ≠ some '.' then none
  else
    let (minor, c) ← readNumber (c.skip 1)
    return (.version major minor, c)

/-- A character of a tag's text. Some flow indicators are allowed where it is delimited. -/
def isUriCharacter (delimited : Bool) (c : Char) : Bool :=
  isWord c || ";/?:@&=+$.%!~*'()".toList.contains c
    || (delimited && (c = ',' || c = '[' || c = ']'))

/-- The bytes of a tag's text, in which `%` escapes one. -/
def uriBytes : List Char → Option (List UInt8)
  | [] => some []
  | '%' :: a :: b :: rest => do
    let high ← hexDigit? a
    let low ← hexDigit? b
    return UInt8.ofNat (16 * high + low) :: (← uriBytes rest)
  | '%' :: _ => none
  | c :: rest => (uriBytes rest).map ((String.singleton c).toUTF8.toList ++ ·)

/-- The text of a tag, which may be empty. -/
def readUri (delimited : Bool) (c : Cursor) : Option (String × Cursor) := do
  let (written, behind) := c.span (isUriCharacter delimited)
  let text ← String.fromUTF8? ⟨(← uriBytes written).toArray⟩
  return (text, behind)

def readNonemptyUri (delimited : Bool) (c : Cursor) : Option (String × Cursor) :=
  (readUri delimited c).filter (!·.1.isEmpty)

/-- A handle that ends in an exclamation mark of its own. -/
def readNamedHandle (c : Cursor) : Option (String × Cursor) :=
  if c.rest.head? = some '!' then
    let (name, behind) := (c.skip 1).span isWord
    if behind.rest.head? = some '!' then
      some ("!" ++ String.ofList name ++ "!", behind.skip 1)
    else none
  else none

/-- A handle that a directive may declare. -/
def readDeclaredHandle (c : Cursor) : Option (String × Cursor) :=
  (readNamedHandle c).or <|
    match c.rest with
    | '!' :: next :: _ => if isWord next then none else some ("!", c.skip 1)
    | _ => none

def readTagHandle (c : Cursor) : Option (Token × Cursor) := do
  let (handle, c) ← readDeclaredHandle c
  if !(c.rest.head?.any isSpace) then none
  else
    let (stem, c) ← readNonemptyUri true c.skipSpaces
    if endsWord c.rest then some (.tagHandle handle stem, c) else none

def readDirective (c : Cursor) : Option (Token × Cursor) := do
  let (name, c) := (c.skip 1).span isWord
  if !endsWord c.rest then none
  else
    let (token, c) ← match String.ofList name with
      | "YAML" => readVersion c.skipSpaces
      | "TAG" => readTagHandle c.skipSpaces
      | _ => none
    return (token, ← c.finishLine)

/-- A tag as written: verbatim, behind a handle, or a lone exclamation mark. -/
def readTagText (c : Cursor) : Option (Token × Cursor) := do
  match c.rest with
  | '!' :: '<' :: _ =>
    let (text, c) ← readNonemptyUri true (c.skip 2)
    if c.rest.head? = some '>' then some (.tag "" text, c.skip 1) else none
  | _ =>
    match readNamedHandle c with
    | some (handle, c) =>
      let (text, c) ← readNonemptyUri false c
      some (.tag handle text, c)
    | none =>
      let (text, c) ← readUri false (c.skip 1)
      some (if text.isEmpty then .tag "" "!" else .tag "!" text, c)

def readTag (inFlow : Bool) (c : Cursor) : Option (Token × Cursor) := do
  let (token, c) ← readTagText c
  if endsWord c.rest || (inFlow && c.rest.head? = some ',') then some (token, c) else none

/-- The name of an anchor or alias. -/
def readName (c : Cursor) : Option (String × Cursor) :=
  let (name, behind) := (c.skip 1).span isWord
  let ends := endsWord behind.rest || behind.rest.head?.any ("?:,]\x7d%@\x60".toList.contains ·)
  if name.isEmpty || !ends then none else some (String.ofList name, behind)

/-- A token, or the place where a key may have begun. -/
inductive Piece where
  | token (t : Token)
  | slot (n : Nat)

/-- A node that may turn out to be a key. -/
structure Candidate where
  slot : Nat
  /-- Stands where only a key can stand. -/
  required : Bool
  mark : Mark

structure Lexer where
  cursor : Cursor
  /-- What was read, last first. -/
  found : List Piece
  /-- The columns of the open block collections, innermost first. -/
  columns : List Nat
  /-- The last candidate in each open flow collection, innermost first, and outside of them. -/
  candidates : List (Option Candidate)
  /-- Whether a key may begin here. -/
  keyAllowed : Bool
  slots : Nat
  /-- The slots that turned out to be keys, and whether a mapping starts there. -/
  keys : List (Nat × Bool)

namespace Lexer

def start (s : List Char) : Lexer := ⟨.ofText s, [], [], [none], true, 0, []⟩

def inFlow (l : Lexer) : Bool :=
  1 < l.candidates.length

def column (l : Lexer) : Nat :=
  l.cursor.mark.column

/-- Where the content of the innermost block collection starts at the least. -/
def margin (l : Lexer) : Nat :=
  match l.columns with
  | [] => 0
  | column :: _ => column + 1

def push (l : Lexer) (t : Token) : Lexer :=
  { l with found := .token t :: l.found }

def setCandidate (l : Lexer) (candidate : Option Candidate) : Lexer :=
  { l with candidates := candidate :: l.candidates.tail }

/-- Drops the last candidate. -/
def dropCandidate (l : Lexer) : Option Lexer :=
  match l.candidates with
  | some candidate :: _ => if candidate.required then none else some (l.setCandidate none)
  | _ => some l

/-- Makes what follows a candidate, where a key may begin. -/
def addCandidate (l : Lexer) : Option Lexer := do
  if l.keyAllowed then
    let l ← l.dropCandidate
    let candidate : Candidate := ⟨l.slots, !l.inFlow && l.margin = l.column + 1, l.cursor.mark⟩
    return { l.setCandidate (some candidate) with
      found := .slot l.slots :: l.found
      slots := l.slots + 1 }
  else return l

/-- A key stands on the line of its colon, at most 1024 characters before it. -/
def isExpired (here : Mark) (candidate : Candidate) : Bool :=
  candidate.mark.line < here.line || candidate.mark.index + 1024 < here.index

/-- Drops the candidates that can no longer be keys. -/
def expire (l : Lexer) : Option Lexer := do
  let candidates ← l.candidates.mapM fun
    | none => some none
    | some candidate =>
      if isExpired l.cursor.mark candidate then
        if candidate.required then none else some none
      else some (some candidate)
  return { l with candidates }

/-- Starts a block collection, unless the innermost one is indented as far. -/
def openBlock (l : Lexer) (column : Nat) (t : Token) : Lexer :=
  if l.inFlow || column < l.margin then l else { l.push t with columns := column :: l.columns }

/-- Ends the block collections that hold a test of their columns. -/
def closeBlocks (l : Lexer) (p : Nat → Bool) : Lexer :=
  if l.inFlow then l
  else
    let closed := l.columns.takeWhile p
    { l with
      found := closed.map (fun _ => .token .blockEnd) ++ l.found
      columns := l.columns.drop closed.length }

/-- Takes over a token that was read, behind which no key begins. -/
def take (l : Lexer) (read : Token × Cursor) : Lexer :=
  { l.push read.1 with cursor := read.2, keyAllowed := false }

/-- Takes over an indicator. -/
def indicator (l : Lexer) (t : Token) (keyAllowed : Bool) : Lexer :=
  { l.push t with cursor := l.cursor.skip 1, keyAllowed }

def takeScalar (l : Lexer) (style : ScalarStyle) (read : ScalarReading) : Lexer :=
  { l.push (.scalar read.text style) with cursor := read.cursor, keyAllowed := read.broken }

def directive (l : Lexer) : Option Lexer := do
  let l ← (l.closeBlocks fun _ => true).dropCandidate
  return l.take (← readDirective l.cursor)

def documentMark (l : Lexer) (t : Token) : Option Lexer := do
  let l ← (l.closeBlocks fun _ => true).dropCandidate
  return l.take (t, l.cursor.skip 3)

def openFlow (l : Lexer) (t : Token) : Option Lexer := do
  let l ← l.addCandidate
  return { l.indicator t true with candidates := none :: l.candidates }

def closeFlow (l : Lexer) (t : Token) : Option Lexer := do
  let l ← l.dropCandidate
  let outer := if l.inFlow then l.candidates.tail else l.candidates
  return { l.indicator t false with candidates := outer }

def flowEntry (l : Lexer) : Option Lexer := do
  return (← l.dropCandidate).indicator .flowEntry true

/-- Starts the block collection that an indicator needs. Outside of flow collections that is
possible only where a key may begin. -/
def openAt (l : Lexer) (t : Token) : Option Lexer :=
  if l.inFlow || l.keyAllowed then some (l.openBlock l.column t) else none

def blockEntry (l : Lexer) : Option Lexer := do
  return (← (← l.openAt .blockSequence).dropCandidate).indicator .blockEntry true

def explicitKey (l : Lexer) : Option Lexer := do
  return (← (← l.openAt .blockMapping).dropCandidate).indicator .key (!l.inFlow)

/-- A colon makes the last candidate a key. -/
def value (l : Lexer) : Option Lexer :=
  match l.candidates with
  | some candidate :: _ =>
    let column := candidate.mark.column
    let opens := !l.inFlow && l.margin ≤ column
    some (({ l.setCandidate none with
      keys := (candidate.slot, opens) :: l.keys
      columns := if opens then column :: l.columns else l.columns }).indicator .value false)
  | _ => (l.openAt .blockMapping).map (·.indicator .value (!l.inFlow))

def named (l : Lexer) (token : String → Token) : Option Lexer := do
  let l ← l.addCandidate
  let (name, cursor) ← readName l.cursor
  return l.take (token name, cursor)

def tag (l : Lexer) : Option Lexer := do
  let l ← l.addCandidate
  return l.take (← readTag l.inFlow l.cursor)

def block (l : Lexer) (style : ScalarStyle) : Option Lexer := do
  let l ← l.dropCandidate
  return l.takeScalar style (← readBlock (style = .folded) l.margin (l.cursor.skip 1))

def quoted (l : Lexer)
    (read : Mark → Gap → List Char → List Char → Option ScalarReading) : Option Lexer := do
  let l ← l.addCandidate
  let inner := l.cursor.skip 1
  return l.takeScalar .quoted (← read inner.mark .none [] inner.rest)

def plain (l : Lexer) : Option Lexer := do
  let l ← l.addCandidate
  return l.takeScalar .plain
    (← readPlain l.inFlow l.margin l.cursor.mark .none [] l.cursor.rest)

/-- Whether a plain scalar may start with a character that is no indicator here. -/
def startsPlain (inFlow : Bool) (c : Char) (rest : List Char) : Bool :=
  !(isSpace c || "-?:,[]\x7b\x7d#&*!|>'\"%@\x60".toList.contains c)
    || (c = '-' && !(rest.head?.any isSpace))
    || (!inFlow && (c = '?' || c = ':') && !endsWord rest)

/-- Reads the token that starts with a character. -/
def readToken (l : Lexer) (c : Char) (rest : List Char) : Option Lexer :=
  if l.column = 0 && c = '%' then l.directive
  else if isDocumentMark l.column (c :: rest) then
    l.documentMark (if c = '-' then .documentStart else .documentEnd)
  else if c = '-' && endsWord rest then l.blockEntry
  else if c = '?' && (l.inFlow || endsWord rest) then l.explicitKey
  else if c = ':' && (l.inFlow || endsWord rest) then l.value
  else if c = '|' && !l.inFlow then l.block .literal
  else if c = '>' && !l.inFlow then l.block .folded
  else
    match c with
    | '[' => l.openFlow .flowSequence
    | '\x7b' => l.openFlow .flowMapping
    | ']' => l.closeFlow .flowSequenceEnd
    | '\x7d' => l.closeFlow .flowMappingEnd
    | ',' => l.flowEntry
    | '*' => l.named .reference
    | '&' => l.named .anchor
    | '!' => l.tag
    | '\'' => l.quoted readSingleQuoted
    | '"' => l.quoted readDoubleQuoted
    | _ => if startsPlain l.inFlow c rest then l.plain else none

/-- Passes blanks, comments and breaks. Behind a break outside of flow collections a key may begin;
where one may, a tab does not count as a blank. -/
def skipBlanks (inFlow keyAllowed inComment : Bool) (mark : Mark) : List Char → Bool × Cursor
  | [] => (keyAllowed, ⟨mark, []⟩)
  | '\r' :: '\n' :: rest => skipBlanks inFlow (keyAllowed || !inFlow) false (mark.nextLine 2) rest
  | c :: rest =>
    if isBreak c then skipBlanks inFlow (keyAllowed || !inFlow) false (mark.nextLine 1) rest
    else if inComment then skipBlanks inFlow keyAllowed true (mark.skip 1) rest
    else if c = '#' then skipBlanks inFlow keyAllowed true (mark.skip 1) rest
    else if c = ' ' || (c = '\t' && (inFlow || !keyAllowed))
        || (c = '\ufeff' && mark.index = 0) then
      skipBlanks inFlow keyAllowed false (mark.skip 1) rest
    else (keyAllowed, ⟨mark, c :: rest⟩)

/-- Goes to the next token. -/
def advance (l : Lexer) : Option Lexer :=
  let (keyAllowed, cursor) :=
    skipBlanks l.inFlow l.keyAllowed false l.cursor.mark l.cursor.rest
  (expire { l with keyAllowed, cursor }).map fun l => l.closeBlocks (l.column < ·)

/-- Reads all tokens, of which there are no more than the limit. -/
def run : Nat → Lexer → Option Lexer
  | 0, _ => none
  | limit + 1, l => do
    let l ← l.advance
    match l.cursor.rest with
    | [] => (l.closeBlocks fun _ => true).dropCandidate
    | c :: rest => run limit (← l.readToken c rest)

/-- The tokens with the slots filled. -/
def tokens (l : Lexer) : List Token :=
  l.found.reverse.flatMap fun
    | .token t => [t]
    | .slot n =>
      match l.keys.lookup n with
      | none => []
      | some opens => if opens then [.blockMapping, .key] else [.key]

end Lexer

/-- The tokens of a text, which may begin with a byte order mark. Every token takes a character at
least. -/
def tokens? (s : String) : Option (List Token) :=
  let body := match s.toList with
    | '\ufeff' :: body => body
    | body => body
  if body.all isAllowed then ((Lexer.start body).run (body.length + 1)).map (·.tokens) else none

end ConventionLint.Yaml
