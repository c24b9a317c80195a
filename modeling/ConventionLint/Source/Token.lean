import ConventionLint.Source.Piece

/-!
# Tokens

The lexemes of a source text with the positions they start at. An identifier written with a leading
`@` starts there but is named without it.
-/
namespace ConventionLint.Source

structure Token where
  kind : LexemeKind
  text : String
  position : Position
deriving DecidableEq, Repr

namespace Token

def isPunctuation (t : Token) (text : String) : Bool :=
  t.kind = .punctuation && t.text = text

def isIdentifier (t : Token) : Bool :=
  t.kind = .identifier

/-- Whether the token is the given word. -/
def isWord (t : Token) (text : String) : Bool :=
  t.kind = .identifier && t.text = text

end Token

def Piece.lexemeText (piece : Piece) (kind : LexemeKind) : String :=
  match kind, piece.text with
  | .identifier, '@' :: name => String.ofList name
  | _, text => String.ofList text

/-- The tokens among pieces that start at a position, behind those in `done` (last first). -/
def locate (done : List Token) (p : Position) : List Piece → List Token
  | [] => done.reverse
  | piece :: rest =>
    match piece.kind with
    | .lexeme kind =>
      locate (⟨kind, piece.lexemeText kind, p⟩ :: done) (p.after piece.text) rest
    | _ => locate done (p.after piece.text) rest

/-- A text without the mark that some editors put in front of it. -/
def withoutMark : List Char → List Char
  | c :: rest => if c.toNat = 0xfeff then rest else c :: rest
  | [] => []

def tokens (source : String) : Except Fault (List Token) :=
  let text := withoutMark source.toList
  match pieces text with
  | .ok found => .ok (locate [] .start found)
  | .error ⟨cause, passed⟩ =>
    let p := Position.start.after (text.take passed)
    .error ⟨cause, p.line, p.column⟩

end ConventionLint.Source
