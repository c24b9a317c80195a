import ConventionLint.Proofs.Source.Writing

/-!
# Lexing what was written

Lexemes with a space behind each are cut into just these lexemes and spaces, so that their tokens are
the lexemes again, in places.
-/
namespace ConventionLint.Source

/-- The punctuation that declarations are written with. -/
def writtenMarks : List Char :=
  ['.', ';', '=', '<', '>', ',', ':', '\x7b', '\x7d', '(', ')']

def Token.lexeme (t : Token) : Lexeme :=
  ⟨t.kind, t.text⟩

namespace Lexeme

def isPlain (l : Lexeme) : Bool :=
  match l.kind with
  | .identifier => isIdentifierText l.text
  | .punctuation => writtenMarks.any fun c => l.text = String.ofList [c]
  | .literal => false

def pieces (l : Lexeme) : List Piece :=
  [⟨.lexeme l.kind, l.text.toList⟩, ⟨.blank, [' ']⟩]

end Lexeme

/-- Tables without common code points have no common characters. -/
theorem anyHolds_eq_false_of_apart {table other : List Text.CharRange} {c : Char}
    (apart : table.all (fun r => other.all fun s => r.2 < s.1 || s.2 < r.1) = true)
    (holds : Text.CharRange.anyHolds table c = true) : Text.CharRange.anyHolds other c = false := by
  rw [← Bool.not_eq_true]
  intro both
  obtain ⟨r, member, low, high⟩ := Text.CharRange.anyHolds_iff.1 holds
  obtain ⟨s, found, from_s, to_s⟩ := Text.CharRange.anyHolds_iff.1 both
  have := List.all_eq_true.1 (List.all_eq_true.1 apart r member) s found
  simp only [Bool.or_eq_true, decide_eq_true_eq] at this
  omega

theorem anyHolds_of_isAlpha {c : Char} (letter : c.isAlpha = true) :
    Text.CharRange.anyHolds [(65, 90), (97, 122)] c = true := by
  rw [Text.CharRange.anyHolds_iff]
  rcases Bool.or_eq_true_iff.1 letter with upper | lower
  · have both : 'A'.val ≤ c.val ∧ c.val ≤ 'Z'.val := of_decide_eq_true upper
    exact ⟨(65, 90), by simp, UInt32.le_iff_toNat_le.1 both.1, UInt32.le_iff_toNat_le.1 both.2⟩
  · obtain ⟨low, high⟩ := Bool.and_eq_true_iff.1 lower
    exact ⟨(97, 122), by simp, UInt32.le_iff_toNat_le.1 (of_decide_eq_true low),
      UInt32.le_iff_toNat_le.1 (of_decide_eq_true high)⟩

/-- No letter is white space. -/
theorem isBlank_eq_false_of_isAlphabetic {c : Char} (letter : Text.isAlphabetic c = true) :
    Text.isBlank c = false := by
  rw [Text.isAlphabetic] at letter
  split at letter
  · exact anyHolds_eq_false_of_apart (by decide) (anyHolds_of_isAlpha letter)
  · exact anyHolds_eq_false_of_apart (by decide +kernel) letter

/-- A word starts with nothing that starts another piece. -/
theorem ne_of_isWordStart {c d : Char} (start : isWordStart c = true)
    (other : isWordStart d = false) : c ≠ d := by
  rintro rfl
  simp [start] at other

theorem isBlank_eq_false_of_isWordStart {c : Char} (start : isWordStart c = true) :
    Text.isBlank c = false := by
  simp only [isWordStart, Bool.or_eq_true, decide_eq_true_eq] at start
  rcases start with rfl | letter
  · decide
  · exact isBlank_eq_false_of_isAlphabetic letter

theorem stringMarks_eq_none {c : Char} (plain : StringStyle.isMark c = false) (rest : List Char) :
    stringMarks (c :: rest) = none := by
  simp [stringMarks, plain]

/-- A word ends where nothing goes on with it. -/
theorem wordLength_word {word rest : List Char} (more : word.all isWordRest = true)
    (ended : rest.head?.any isWordRest = false) : wordLength (word ++ rest) = word.length := by
  have behind : rest.takeWhile isWordRest = [] := by
    cases rest with
    | nil => rfl
    | cons d rest => exact List.takeWhile_cons_of_neg (by simpa using ended)
  rw [wordLength, List.takeWhile_append_of_pos (List.all_eq_true.1 more), behind, List.append_nil]

theorem pieceAt_word {lineStart : Bool} {c : Char} {word rest : List Char}
    (start : isWordStart c = true) (more : word.all isWordRest = true)
    (ended : rest.head?.any isWordRest = false) :
    pieceAt lineStart c (word ++ rest) = .ok (.lexeme .identifier, word.length) := by
  have other {d : Char} (h : isWordStart d = false) : c ≠ d := ne_of_isWordStart start h
  have unmarked : StringStyle.isMark c = false := by
    simp [StringStyle.isMark, other (d := '@') (by decide), other (d := '$') (by decide)]
  rw [pieceAt, if_neg (other (by decide)), if_neg (by simp [isBlank_eq_false_of_isWordStart start]),
    if_neg (by simp [other (d := '#') (by decide)]),
    if_neg (by simp [other (d := '/') (by decide)]),
    if_neg (by simp [other (d := '/') (by decide)]), if_neg (other (by decide)),
    stringMarks_eq_none unmarked]
  dsimp only
  rw [if_neg (other (by decide)), if_neg (by simp [other (d := '@') (by decide)]), if_pos start,
    wordLength_word more ended]

theorem pieceAt_mark {lineStart : Bool} {c : Char} (plain : c ∈ writtenMarks) (rest : List Char) :
    pieceAt lineStart c (' ' :: rest) = .ok (.lexeme .punctuation, 0) := by
  simp only [writtenMarks, List.mem_cons, List.not_mem_nil, or_false] at plain
  rcases plain with rfl | rfl | rfl | rfl | rfl | rfl | rfl | rfl | rfl | rfl | rfl <;> rfl

namespace Lexeme

/-- What a lexeme is that declarations are written with. -/
theorem shape_of_isPlain {l : Lexeme} (plain : l.isPlain = true) :
    ∃ c more, l.text.toList = c :: more ∧
      (l.kind = .identifier ∧ isWordStart c = true ∧ more.all isWordRest = true ∨
        l.kind = .punctuation ∧ c ∈ writtenMarks ∧ more = []) := by
  rw [isPlain] at plain
  split at plain
  · next kind =>
    rw [isIdentifierText] at plain
    split at plain
    · cases plain
    · next c more shape =>
      rw [Bool.and_eq_true] at plain
      exact ⟨c, more, shape, .inl ⟨kind, plain⟩⟩
  · next kind =>
    obtain ⟨c, member, text⟩ := List.any_eq_true.1 plain
    rw [decide_eq_true_eq] at text
    exact ⟨c, [], by rw [text, String.toList_ofList], .inr ⟨kind, member, rfl⟩⟩
  · cases plain

end Lexeme

theorem cutFrom_cons {passed : Nat} {lineStart : Bool} {done : List Piece} {c : Char}
    {rest : List Char} {kind : PieceKind} {n : Nat}
    (found : pieceAt lineStart c rest = .ok (kind, n)) :
    cutFrom passed lineStart done (c :: rest) =
      cutFrom (passed + n + 1) (kind.keepsLineStart lineStart) (⟨kind, c :: rest.take n⟩ :: done)
        (rest.drop n) := by
  rw [cutFrom, found]

/-- A lexeme is cut off whole, and the space behind it with nothing else. -/
theorem cutFrom_lexeme {l : Lexeme} (plain : l.isPlain = true) (rest : List Char) (passed : Nat)
    (lineStart : Bool) (done : List Piece) :
    ∃ passed', cutFrom passed lineStart done (l.text.toList ++ ' ' :: rest) =
      cutFrom passed' false (l.pieces.reverse ++ done) rest := by
  obtain ⟨c, more, shape, plain⟩ := Lexeme.shape_of_isPlain plain
  have found : pieceAt lineStart c (more ++ ' ' :: rest) = .ok (.lexeme l.kind, more.length) := by
    rcases plain with ⟨kind, start, wordly⟩ | ⟨kind, member, rfl⟩
    · rw [kind, pieceAt_word start wordly rfl]
    · rw [kind, List.nil_append, pieceAt_mark member, List.length_nil]
  have space : pieceAt false ' ' rest = .ok (.blank, 0) := rfl
  refine ⟨passed + more.length + 1 + 0 + 1, ?_⟩
  rw [shape, List.cons_append, cutFrom_cons found, List.take_left, List.drop_left,
    PieceKind.keepsLineStart, cutFrom_cons space]
  simp [Lexeme.pieces, shape, PieceKind.keepsLineStart]

theorem cutFrom_written {lexemes : List Lexeme} (plain : ∀ l ∈ lexemes, l.isPlain = true)
    (passed : Nat) (lineStart : Bool) (done : List Piece) :
    cutFrom passed lineStart done (lexemes.flatMap fun l => l.text.toList ++ [' ']) =
      .ok (done.reverse ++ lexemes.flatMap (·.pieces)) := by
  induction lexemes generalizing passed lineStart done with
  | nil => simp [cutFrom]
  | cons l lexemes ih =>
    obtain ⟨passed', cut⟩ := cutFrom_lexeme (plain l (by simp))
      (lexemes.flatMap fun l => l.text.toList ++ [' ']) passed lineStart done
    rw [List.flatMap_cons, List.append_assoc, List.singleton_append, cut,
      ih fun other member => plain other (List.mem_cons_of_mem _ member)]
    simp

theorem locate_eq (done : List Token) (p : Position) (found : List Piece) :
    locate done p found = done.reverse ++ locate [] p found := by
  induction found generalizing done p with
  | nil => simp [locate]
  | cons piece found ih =>
    rw [locate, locate]
    split
    · rw [ih, ih [_]]
      simp
    · exact ih done _

theorem locate_cons_lexeme {piece : Piece} {kind : LexemeKind} (shape : piece.kind = .lexeme kind)
    (p : Position) (found : List Piece) : locate [] p (piece :: found)
      = ⟨kind, piece.lexemeText kind, p⟩ :: locate [] (p.after piece.text) found := by
  rw [locate, shape]
  dsimp only
  rw [locate_eq, List.reverse_singleton, List.singleton_append]

def Piece.IsFiller (piece : Piece) : Prop :=
  ∀ kind, piece.kind ≠ .lexeme kind

theorem locate_cons_filler {piece : Piece} (filler : piece.IsFiller) (p : Position)
    (found : List Piece) : locate [] p (piece :: found) = locate [] (p.after piece.text) found := by
  rw [locate]
  split
  · next kind shape => exact absurd shape (filler kind)
  · rfl

/-- A lexeme becomes a token where it stands. -/
theorem locate_lexeme {l : Lexeme} (plain : l.isPlain = true) (done : List Token) (p : Position)
    (more : List Piece) :
    locate done p (⟨.lexeme l.kind, l.text.toList⟩ :: more) =
      locate (⟨l.kind, l.text, p⟩ :: done) (p.after l.text.toList) more := by
  obtain ⟨c, text, shape, plain⟩ := Lexeme.shape_of_isPlain plain
  have named : (Piece.mk (.lexeme l.kind) l.text.toList).lexemeText l.kind = l.text := by
    unfold Piece.lexemeText
    dsimp only
    split
    · next name kind marked =>
      rcases plain with ⟨-, start, -⟩ | ⟨other, -⟩
      · obtain ⟨rfl, -⟩ := List.cons.inj (shape.symm.trans marked)
        exact absurd start (by decide)
      · rw [kind] at other
        cases other
    · exact String.ofList_toList
  simp only [locate, named]

theorem locate_pieces {l : Lexeme} (plain : l.isPlain = true) (done : List Token) (p : Position)
    (more : List Piece) :
    ∃ q, locate done p (l.pieces ++ more) = locate (⟨l.kind, l.text, p⟩ :: done) q more := by
  refine ⟨(p.after l.text.toList).after [' '], ?_⟩
  rw [Lexeme.pieces, List.cons_append, List.cons_append, List.nil_append, locate_lexeme plain, locate]

theorem locate_written {lexemes : List Lexeme} (plain : ∀ l ∈ lexemes, l.isPlain = true)
    (done : List Token) (p : Position) :
    (locate done p (lexemes.flatMap (·.pieces))).map Token.lexeme =
      done.reverse.map Token.lexeme ++ lexemes := by
  induction lexemes generalizing done p with
  | nil => simp [locate]
  | cons l lexemes ih =>
    obtain ⟨q, located⟩ := locate_pieces (plain l (by simp)) done p (lexemes.flatMap (·.pieces))
    rw [List.flatMap_cons, located, ih fun other member => plain other (List.mem_cons_of_mem _ member)]
    simp [Token.lexeme]

theorem withoutMark_word {c : Char} (start : isWordStart c = true) (rest : List Char) :
    withoutMark (c :: rest) = c :: rest := by
  have other : c.toNat ≠ 0xfeff := by
    intro mark
    have : c = '\ufeff' := Char.ext (UInt32.toNat.inj mark)
    exact ne_of_isWordStart start (by decide +kernel) this
  rw [withoutMark, if_neg other]

theorem withoutMark_written {lexemes : List Lexeme} (plain : ∀ l ∈ lexemes, l.isPlain = true) :
    withoutMark (lexemes.flatMap fun l => l.text.toList ++ [' ']) =
      lexemes.flatMap fun l => l.text.toList ++ [' '] := by
  cases lexemes with
  | nil => rfl
  | cons l lexemes =>
    obtain ⟨c, more, shape, plain⟩ := Lexeme.shape_of_isPlain (plain l (by simp))
    rw [List.flatMap_cons, shape, List.cons_append, List.cons_append]
    rcases plain with ⟨-, start, -⟩ | ⟨-, member, -⟩
    · exact withoutMark_word start _
    · have marks : ∀ c ∈ writtenMarks, c.toNat ≠ 0xfeff := by simp [writtenMarks]
      rw [withoutMark, if_neg (marks c member)]

/-- The tokens of written lexemes are the lexemes in places. -/
theorem tokens_written {lexemes : List Lexeme} (plain : ∀ l ∈ lexemes, l.isPlain = true) :
    ∃ ts, tokens (Lexeme.written lexemes) = .ok ts ∧ ts.map Token.lexeme = lexemes := by
  refine ⟨locate [] .start (lexemes.flatMap (·.pieces)), ?_, by simp [locate_written plain]⟩
  rw [tokens, Lexeme.written, String.toList_ofList, withoutMark_written plain]
  simp [pieces, cutFrom_written plain]

end ConventionLint.Source
