import ConventionLint.Source.Position

/-!
# Literals

How far a character or string literal reaches. A string literal may hold holes, a hole may hold
further literals, and so on; the reader therefore keeps a stack of the frames it is inside of and
takes the text character by character. The literal ends when the stack is empty.
-/
namespace ConventionLint.Source

/-- The marks before the opening quote: `@` makes a literal verbatim, `$` interpolated. -/
structure StringStyle where
  verbatim : Bool
  interpolated : Bool
deriving DecidableEq, Repr

namespace StringStyle

def plain : StringStyle := ⟨false, false⟩

def isMark (c : Char) : Bool :=
  c = '@' || c = '$'

def ofMarks (marks : List Char) : StringStyle :=
  ⟨marks.contains '@', marks.contains '$'⟩

end StringStyle

/-- The number of quotes a text starts with. -/
def quoteRun (s : List Char) : Nat :=
  (s.takeWhile (· = '"')).length

/-- The marks a text starts with, when a quote follows them directly. -/
def stringMarks (s : List Char) : Option (List Char) :=
  let marks := s.takeWhile StringStyle.isMark
  if marks ≠ [] && (s.drop marks.length).head? = some '"' then some marks else none

inductive Frame where
  /-- The text of a literal between its quotes. -/
  | text (style : StringStyle)
  /-- A hole of an interpolated literal, with the number of braces open inside it. -/
  | hole (style : StringStyle) (braces : Nat)
  /-- A raw literal, closed by as many quotes as opened it. -/
  | raw (quotes : Nat)
  /-- A character literal inside a hole. -/
  | character
deriving DecidableEq, Repr

namespace Frame

/-- The opening quotes of a literal: their number and the frame behind them. -/
def opening (style : StringStyle) (s : List Char) : Nat × Frame :=
  let quotes := quoteRun s
  if 3 ≤ quotes then (quotes, .raw quotes) else (1, .text style)

def unterminated : Frame → FaultCause
  | .raw _ => .unterminatedRawString
  | _ => .unterminatedString

/-- What one character does inside a frame: how many characters behind it go with it, and the frames
that take the place of this one. -/
def step (frame : Frame) (c : Char) (rest : List Char) : Except FaultCause (Nat × List Frame) :=
  match frame with
  | .text style =>
    if c = '"' then
      if style.verbatim && rest.head? = some '"' then .ok (1, [frame]) else .ok (0, [])
    else if c = '\\' && !style.verbatim then .ok (1, [frame])
    else if c = '\x7b' && style.interpolated then
      if rest.head? = some '\x7b' then .ok (1, [frame]) else .ok (0, [.hole style 0])
    else if c = '\n' && !style.verbatim then .error .newlineInString
    else .ok (0, [frame])
  | .hole style braces =>
    if c = '\x7b' then .ok (0, [.hole style (braces + 1)])
    else if c = '\x7d' then
      match braces with
      | 0 => .ok (0, [.text style])
      | n + 1 => .ok (0, [.hole style n])
    else if c = '"' then
      let (quotes, inner) := opening .plain (c :: rest)
      .ok (quotes - 1, [inner, frame])
    else if c = '\'' then .ok (0, [.character, frame])
    else
      match stringMarks (c :: rest) with
      | some marks =>
        let (quotes, inner) := opening (.ofMarks marks) ((c :: rest).drop marks.length)
        .ok (marks.length + quotes - 1, [inner, frame])
      | none => .ok (0, [frame])
  | .raw quotes =>
    if c = '"' then
      let run := quoteRun (c :: rest)
      .ok (run - 1, if quotes ≤ run then [] else [frame])
    else .ok (0, [frame])
  | .character =>
    if c = '\\' then .ok (1, [frame])
    else if c = '\'' || c = '\n' then .ok (0, [])
    else .ok (0, [frame])

end Frame

/-- The length of a literal, `passed` counting what was read of it before. The next `skip`
characters go with the last one; then the top frame takes over. A fault comes with the number of
characters before it. -/
def literalLength (passed : Nat) : Nat → List Frame → List Char → Except (FaultCause × Nat) Nat
  | 0, [], _ => .ok passed
  | _, [], [] => .ok passed
  | _, frame :: _, [] => .error (frame.unterminated, passed)
  | skip + 1, frames, _ :: rest => literalLength (passed + 1) skip frames rest
  | 0, frame :: frames, c :: rest =>
    match frame.step c rest with
    | .error cause => .error (cause, passed)
    | .ok (skip, inner) => literalLength (passed + 1) skip (inner ++ frames) rest

/-- The length of the string literal a text starts with: marks, quotes and all. -/
def stringLength (marks : List Char) (s : List Char) : Except (FaultCause × Nat) Nat :=
  let (quotes, frame) := Frame.opening (.ofMarks marks) (s.drop marks.length)
  literalLength 0 (marks.length + quotes) [frame] s

/-- The length of a character literal behind its opening quote. It ends with its quote, or before a
newline. -/
def characterLength (passed : Nat) : List Char → Nat
  | [] => passed
  | ['\\'] => passed + 1
  | '\\' :: _ :: rest => characterLength (passed + 2) rest
  | '\'' :: _ => passed + 1
  | '\n' :: _ => passed
  | _ :: rest => characterLength (passed + 1) rest

end ConventionLint.Source
