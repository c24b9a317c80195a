import ConventionLint.Source.Token

/-!
# Lexical grammar

Which texts are lexemes, and what may stand between them. A string may have holes, a hole holds
strings again, so the three kinds of text are defined together. Between lexemes stand white space,
comments and directive lines; a directive line needs a line on which nothing but white space stands
before it.
-/
namespace ConventionLint.Source

/-- Escape pairs and other characters up to a closing mark, on one line. -/
inductive IsQuoted (mark : Char) : List Char → Prop where
  | done : IsQuoted mark []
  | escape {s : List Char} (c : Char) : IsQuoted mark s → IsQuoted mark ('\\' :: c :: s)
  | plain {c : Char} {s : List Char} : c ≠ mark → c ≠ '\\' → c ≠ '\n' → IsQuoted mark s →
      IsQuoted mark (c :: s)

/-- What stands between runs of `quotes` quotes. -/
structure IsRawBody (quotes : Nat) (body : List Char) : Prop where
  opened : 3 ≤ quotes
  filled : body ≠ []
  starts : body.head? ≠ some '"'
  shorter : ¬ List.replicate quotes '"' <:+: body

mutual

/-- A string literal without `@`. -/
inductive IsString : List Char → Prop where
  | regular {s : List Char} : IsQuoted '"' s → IsString ('"' :: (s ++ ['"']))
  | raw {quotes : Nat} {body : List Char} : IsRawBody quotes body →
      IsString (List.replicate quotes '"' ++ (body ++ List.replicate quotes '"'))
  | interpolated {s : List Char} : IsInterpolated s → IsString ('$' :: '"' :: (s ++ ['"']))

/-- What stands between the quotes of an interpolated string. -/
inductive IsInterpolated : List Char → Prop where
  | done : IsInterpolated []
  | escape {s : List Char} (c : Char) : IsInterpolated s → IsInterpolated ('\\' :: c :: s)
  | brace {s : List Char} : IsInterpolated s → IsInterpolated ('\x7b' :: '\x7b' :: s)
  | hole {inside s : List Char} : IsHole inside → inside.head? ≠ some '\x7b' → IsInterpolated s →
      IsInterpolated ('\x7b' :: (inside ++ '\x7d' :: s))
  | plain {c : Char} {s : List Char} : c ∉ ['"', '\\', '\x7b', '\n'] → IsInterpolated s →
      IsInterpolated (c :: s)

/-- What stands between the braces of a hole. No string in it has a quote right behind it. -/
inductive IsHole : List Char → Prop where
  | done : IsHole []
  | braces {inside s : List Char} : IsHole inside → IsHole s →
      IsHole ('\x7b' :: (inside ++ '\x7d' :: s))
  | character {inside s : List Char} : IsQuoted '\'' inside → IsHole s →
      IsHole ('\'' :: (inside ++ '\'' :: s))
  | string {text s : List Char} : IsString text → s.head? ≠ some '"' → IsHole s →
      IsHole (text ++ s)
  | plain {c : Char} {s : List Char} : c ∉ ['"', '\'', '@', '$', '\x7b', '\x7d'] → IsHole s →
      IsHole (c :: s)

end

/-- A number behind its first digit. -/
inductive IsNumberRest : List Char → Prop where
  | done : IsNumberRest []
  | word {c : Char} {s : List Char} : isWordRest c = true → IsNumberRest s → IsNumberRest (c :: s)
  | fraction {d : Char} {s : List Char} : d.isDigit = true → IsNumberRest s →
      IsNumberRest ('.' :: d :: s)

/-- A text that is a lexeme of the given kind and name. Only the mark in front of an identifier does
not belong to its name. -/
inductive IsLexeme : LexemeKind → (name text : List Char) → Prop where
  | word {c : Char} {word : List Char} : isWordStart c = true → word.all isWordRest = true →
      IsLexeme .identifier (c :: word) (c :: word)
  | marked {c : Char} {word : List Char} : isWordStart c = true → word.all isWordRest = true →
      IsLexeme .identifier (c :: word) ('@' :: c :: word)
  | number {c : Char} {s : List Char} : c.isDigit = true → IsNumberRest s →
      IsLexeme .literal (c :: s) (c :: s)
  | string {s : List Char} : IsString s → IsLexeme .literal s s
  | character {s : List Char} : IsQuoted '\'' s →
      IsLexeme .literal ('\'' :: (s ++ ['\''])) ('\'' :: (s ++ ['\'']))
  | arrow : IsLexeme .punctuation ['=', '>'] ['=', '>']
  | colons : IsLexeme .punctuation [':', ':'] [':', ':']
  | mark {c : Char} : Text.isBlank c = false → isWordStart c = false → c.isDigit = false →
      c ∉ ['#', '"', '\'', '\ufeff'] → IsLexeme .punctuation [c] [c]

/-- A comment that runs to the end of its line, the newline apart. -/
def IsLineComment (s : List Char) : Prop :=
  ∃ body, s = '/' :: '/' :: body ∧ '\n' ∉ body

def IsBlockComment (s : List Char) : Prop :=
  ∃ body, s = '/' :: '*' :: (body ++ ['*', '/']) ∧ ¬ ['*', '/'] <:+: body

/-- A line from its hash sign on, the newline apart. -/
def IsDirective (s : List Char) : Prop :=
  ∃ body, s = '#' :: body ∧ '\n' ∉ body

/-- White space, comments and directive lines. With `lineStart` nothing but white space stands before
the text on its line. -/
inductive IsFiller : (lineStart : Bool) → List Char → Prop where
  | done {lineStart : Bool} : IsFiller lineStart []
  | newline {lineStart : Bool} {s : List Char} : IsFiller true s → IsFiller lineStart ('\n' :: s)
  | blank {lineStart : Bool} {c : Char} {s : List Char} : Text.isBlank c = true → c ≠ '\n' →
      IsFiller lineStart s → IsFiller lineStart (c :: s)
  | blockComment {lineStart : Bool} {comment s : List Char} : IsBlockComment comment →
      IsFiller false s → IsFiller lineStart (comment ++ s)
  | lineComment {lineStart : Bool} {comment s : List Char} : IsLineComment comment →
      IsFiller true s → IsFiller lineStart (comment ++ '\n' :: s)
  | directive {line s : List Char} : IsDirective line → IsFiller true s →
      IsFiller true (line ++ '\n' :: s)

structure WrittenLexeme where
  kind : LexemeKind
  name : List Char
  text : List Char
  isLexeme : IsLexeme kind name text

/-- What keeps two lexemes apart. -/
structure Separator where
  text : List Char
  isFiller : IsFiller false text
  startsBlank : text.head?.any Text.isBlank = true

/-- A text made of lexemes with a separator behind each, the last one perhaps without. -/
structure LexicalText where
  lead : List Char
  isFiller : IsFiller true lead
  spaced : List (WrittenLexeme × Separator)
  last : Option WrittenLexeme

namespace LexicalText

def spacedText (spaced : List (WrittenLexeme × Separator)) : List Char :=
  spaced.flatMap fun (lexeme, behind) => lexeme.text ++ behind.text

def text (t : LexicalText) : List Char :=
  t.lead ++ (spacedText t.spaced ++ t.last.toList.flatMap (·.text))

end LexicalText

def WrittenLexeme.token (l : WrittenLexeme) (p : Position) : Token :=
  ⟨l.kind, String.ofList l.name, p⟩

namespace LexicalText

def tokensFrom (p : Position) (last : Option WrittenLexeme) :
    List (WrittenLexeme × Separator) → List Token
  | [] => last.toList.map (·.token p)
  | (lexeme, behind) :: more =>
    lexeme.token p :: tokensFrom (p.after (lexeme.text ++ behind.text)) last more

def tokens (t : LexicalText) : List Token :=
  tokensFrom (Position.start.after t.lead) t.last t.spaced

end LexicalText

end ConventionLint.Source
