import ConventionLint.Proofs.Source.Lexing
import ConventionLint.Proofs.Source.LiteralReading

/-!
# Lexical round trip

A text of lexemes and separators has just these lexemes as its tokens, each where it stands. Every
lexeme is cut off whole whatever separator follows, and what stands between lexemes is cut into
pieces that are none.
-/
namespace ConventionLint.Source

theorem stringLength_of_opening (marks opened : List Char) {body rest : List Char} {quotes : Nat}
    {frame : Frame}
    (opening : Frame.opening (.ofMarks marks) ((opened ++ (body ++ rest)).drop marks.length)
      = (quotes, frame))
    (length : marks.length + quotes = opened.length) (passes : Passes [frame] body [] rest) :
    stringLength marks (opened ++ (body ++ rest)) = .ok (opened.length + body.length) := by
  have ended : literalLength (opened.length + body.length) 0 [] rest
      = .ok (opened.length + body.length) := by rw [literalLength]
  rw [stringLength, opening]
  dsimp only
  rw [length, literalLength_skip, Nat.zero_add, passes, ended]

section

variable {lineStart : Bool} {c : Char} {s rest : List Char}

theorem pieceAt_quote {n : Nat} (length : stringLength [] ('"' :: rest) = .ok (n + 1)) :
    pieceAt lineStart '"' rest = .ok (.lexeme .literal, n) := by
  have blank : Text.isBlank '"' = false := by decide
  simp [pieceAt, blank, length, Except.map]

theorem pieceAt_dollar {n : Nat} (length : stringLength ['$'] ('$' :: '"' :: rest) = .ok (n + 1)) :
    pieceAt lineStart '$' ('"' :: rest) = .ok (.lexeme .literal, n) := by
  have blank : Text.isBlank '$' = false := by decide
  have marks : stringMarks ('$' :: '"' :: rest) = some ['$'] := rfl
  simp [pieceAt, blank, marks, length, Except.map]

/-- A string is cut off up to its closing quotes. -/
theorem pieceAt_string (string : IsString (c :: s)) (other : rest.head? ≠ some '"') :
    pieceAt lineStart c (s ++ rest) = .ok (.lexeme .literal, s.length) := by
  generalize whole : c :: s = text at string
  cases string with
  | @regular inside quoted =>
    obtain ⟨rfl, rfl⟩ := List.cons.inj whole
    refine pieceAt_quote ?_
    have opened : Frame.opening .plain ('"' :: (inside ++ ['"'] ++ rest)) = (1, .text .plain) := by
      rw [List.append_assoc]
      exact opening_closed (quoted.head_ne (by decide)) other
    rw [Nat.add_comm]
    exact stringLength_of_opening [] ['"'] opened rfl (passes_quoted [] quoted)
  | @raw quotes body raw =>
    obtain ⟨n, rfl⟩ : ∃ n, quotes = n + 1 := ⟨quotes - 1, by have := raw.opened; omega⟩
    obtain ⟨rfl, rfl⟩ := List.cons.inj whole
    refine pieceAt_quote ?_
    have opened := opening_raw .plain raw (List.replicate (n + 1) '"' ++ rest)
    rw [← List.append_assoc body] at opened
    have length := stringLength_of_opening [] _ opened (by simp)
      (passes_raw (Nat.succ_pos n) body raw.shorter other)
    change stringLength [] (List.replicate (n + 1) '"' ++ (body ++ List.replicate (n + 1) '"')
      ++ rest) = .ok (List.replicate (n + 1) '"' ++ (body ++ List.replicate (n + 1) '"')).length
    rw [List.append_assoc, List.length_append]
    exact length
  | @interpolated inside text =>
    obtain ⟨rfl, rfl⟩ := List.cons.inj whole
    refine pieceAt_dollar ?_
    have opened : Frame.opening .holed ('"' :: (inside ++ ['"'] ++ rest)) = (1, .text .holed) := by
      rw [List.append_assoc]
      exact opening_closed text.head_ne other
    have length := stringLength_of_opening ['$'] ['$', '"'] opened rfl
      (passes_interpolated text)
    rw [List.length_cons, Nat.add_assoc, Nat.add_comm _ 2]
    exact length

/-- Whether nothing or white space stands behind a lexeme. -/
def EndsLexeme (rest : List Char) : Prop :=
  rest.head?.all Text.isBlank = true

theorem EndsLexeme.head_ne (ended : EndsLexeme rest) {d : Char} (other : Text.isBlank d = false) :
    rest.head? ≠ some d := by
  intro same
  rw [EndsLexeme, same] at ended
  exact absurd ended (by simp [other])

theorem anyHolds_of_isDigit (digit : c.isDigit = true) :
    Text.CharRange.anyHolds [(48, 57)] c = true := by
  obtain ⟨low, high⟩ := Bool.and_eq_true_iff.1 digit
  exact Text.CharRange.anyHolds_iff.2 ⟨(48, 57), by simp,
    UInt32.le_iff_toNat_le.1 (of_decide_eq_true low),
    UInt32.le_iff_toNat_le.1 (of_decide_eq_true high)⟩

/-- No numeral is white space. -/
theorem isBlank_eq_false_of_isNumeric (numeral : Text.isNumeric c = true) :
    Text.isBlank c = false := by
  rw [Text.isNumeric] at numeral
  split at numeral
  · exact anyHolds_eq_false_of_apart (by decide) (anyHolds_of_isDigit numeral)
  · exact anyHolds_eq_false_of_apart (by decide +kernel) numeral

theorem isBlank_eq_false_of_isWordRest (wordly : isWordRest c = true) : Text.isBlank c = false := by
  simp only [isWordRest, Bool.or_eq_true, decide_eq_true_eq] at wordly
  rcases wordly with (rfl | letter) | numeral
  · decide
  · exact isBlank_eq_false_of_isAlphabetic letter
  · exact isBlank_eq_false_of_isNumeric numeral

theorem EndsLexeme.isWordRest (ended : EndsLexeme rest) : rest.head?.any isWordRest = false := by
  cases rest with
  | nil => rfl
  | cons d rest =>
    have blank : Text.isBlank d = true := ended
    rw [List.head?_cons, Option.any_some, ← Bool.not_eq_true]
    intro wordly
    rw [isBlank_eq_false_of_isWordRest wordly] at blank
    cases blank

theorem isWordRest_of_isWordStart (start : isWordStart c = true) : isWordRest c = true := by
  have either : isWordRest c = (isWordStart c || Text.isNumeric c) := rfl
  rw [either, start, Bool.true_or]

theorem toNat_lt_of_isDigit (digit : c.isDigit = true) : c.toNat < 128 := by
  obtain ⟨r, member, -, high⟩ := Text.CharRange.anyHolds_iff.1 (anyHolds_of_isDigit digit)
  obtain rfl := List.mem_singleton.1 member
  exact Nat.lt_of_le_of_lt high (by decide)

theorem isWordRest_of_isDigit (digit : c.isDigit = true) : isWordRest c = true := by
  simp [isWordRest, Text.isNumeric_of_isDigit (toNat_lt_of_isDigit digit), digit]

/-- No word starts with a digit. -/
theorem isWordStart_eq_false_of_isDigit (digit : c.isDigit = true) : isWordStart c = false := by
  have letter : c.isAlpha = false := by
    rw [← Bool.not_eq_true]
    intro alpha
    have apart : Text.CharRange.anyHolds [(48, 57)] c = false :=
      anyHolds_eq_false_of_apart (by decide) (anyHolds_of_isAlpha alpha)
    exact absurd (anyHolds_of_isDigit digit) (by simp [apart])
  have underscore : c ≠ '_' := by
    rintro rfl
    exact absurd digit (by decide)
  rw [isWordStart, Text.isAlphabetic, if_pos (toNat_lt_of_isDigit digit), letter]
  simp [underscore]

theorem numberLength_number (ended : EndsLexeme rest) (number : IsNumberRest s) (passed : Nat) :
    numberLength passed (s ++ rest) = passed + s.length := by
  induction number generalizing passed with
  | done =>
    cases rest with
    | nil => rfl
    | cons d rest =>
      have wordly : isWordRest d = false := by simpa using ended.isWordRest
      have point : d ≠ '.' := by simpa using ended.head_ne (d := '.') (by decide)
      rw [List.nil_append, numberLength, if_neg (by simp [wordly, point])]
      rfl
  | word wordly _ ih =>
    rw [List.cons_append, numberLength, if_pos (by simp [wordly]), ih, List.length_cons]
    omega
  | @fraction d s digit _ ih =>
    rw [List.cons_append, List.cons_append, numberLength, if_pos (by simp [digit]), numberLength,
      if_pos (by simp [isWordRest_of_isDigit digit]), ih, List.length_cons, List.length_cons]
    omega

/-- What starts neither white space, a comment, a directive nor a string. -/
theorem pieceAt_plain (blank : Text.isBlank c = false) (other : c ∉ ['#', '"', '\''])
    (uncommented : c = '/' → rest.head? ≠ some '/' ∧ rest.head? ≠ some '*')
    (unmarked : stringMarks (c :: rest) = none) :
    pieceAt lineStart c rest
      = if c = '@' && rest.head?.any isWordStart then .ok (.lexeme .identifier, wordLength rest)
        else if isWordStart c then .ok (.lexeme .identifier, wordLength rest)
        else if c.isDigit then .ok (.lexeme .literal, numberLength 0 rest)
        else if c = '=' && rest.head? = some '>' then .ok (.lexeme .punctuation, 1)
        else if c = ':' && rest.head? = some ':' then .ok (.lexeme .punctuation, 1)
        else .ok (.lexeme .punctuation, 0) := by
  have newline : c ≠ '\n' := by
    rintro rfl
    exact absurd blank (by decide)
  simp only [List.mem_cons, List.not_mem_nil, or_false, not_or] at other
  rw [pieceAt, if_neg newline, if_neg (by simp [blank]), if_neg (by simp [other]),
    if_neg (by simpa using fun same => (uncommented same).1),
    if_neg (by simpa using fun same => (uncommented same).2), if_neg other.2.1, unmarked]
  dsimp only
  rw [if_neg other.2.2]

theorem pieceAt_marked (start : isWordStart c = true) (wordly : s.all isWordRest = true)
    (ended : EndsLexeme rest) :
    pieceAt lineStart '@' (c :: s ++ rest) = .ok (.lexeme .identifier, (c :: s).length) := by
  have other {d : Char} (h : isWordStart d = false) : c ≠ d := ne_of_isWordStart start h
  have unmarked : stringMarks ('@' :: (c :: s ++ rest)) = none := by
    simp [stringMarks, StringStyle.isMark, other (d := '@') (by decide),
      other (d := '$') (by decide), other (d := '"') (by decide)]
  have whole : (c :: s).all isWordRest = true := by
    rw [List.all_cons, wordly, Bool.and_true]
    exact isWordRest_of_isWordStart start
  rw [pieceAt_plain (by decide) (by decide) (fun slash => absurd slash (by decide)) unmarked,
    if_pos (by simpa using start), wordLength_word whole ended.isWordRest]

theorem pieceAt_number (digit : c.isDigit = true) (number : IsNumberRest s)
    (ended : EndsLexeme rest) :
    pieceAt lineStart c (s ++ rest) = .ok (.lexeme .literal, s.length) := by
  have other {d : Char} (h : d.isDigit = false) : c ≠ d := by
    rintro rfl
    simp [digit] at h
  have start := isWordStart_eq_false_of_isDigit digit
  have blank : Text.isBlank c = false :=
    anyHolds_eq_false_of_apart (by decide) (anyHolds_of_isDigit digit)
  have unmarked : stringMarks (c :: (s ++ rest)) = none :=
    stringMarks_eq_none (by simp [StringStyle.isMark, other (d := '@') rfl, other (d := '$') rfl]) _
  rw [pieceAt_plain blank (by simp [other]) (fun same => absurd same (other rfl)) unmarked,
    if_neg (by simp [other (d := '@') rfl]), if_neg (by simp [start]), if_pos digit,
    numberLength_number ended number, Nat.zero_add]

theorem pieceAt_character (quoted : IsQuoted '\'' s) :
    pieceAt lineStart '\'' (s ++ ['\''] ++ rest) = .ok (.lexeme .literal, (s ++ ['\'']).length) := by
  have blank : Text.isBlank '\'' = false := by decide
  have unmarked : stringMarks ('\'' :: (s ++ ['\''] ++ rest)) = none := stringMarks_eq_none rfl _
  have length := characterLength_quoted quoted 0 rest
  rw [List.append_assoc] at unmarked ⊢
  rw [List.singleton_append] at unmarked ⊢
  simp [pieceAt, blank, unmarked, length]

theorem pieceAt_other (blank : Text.isBlank c = false) (start : isWordStart c = false)
    (digit : c.isDigit = false) (plain : c ∉ ['#', '"', '\'', '\ufeff'])
    (ended : EndsLexeme rest) : pieceAt lineStart c rest = .ok (.lexeme .punctuation, 0) := by
  have behind {d : Char} (other : Text.isBlank d = false) : rest.head? ≠ some d :=
    ended.head_ne other
  have unmarked : stringMarks (c :: rest) = none := by
    by_cases mark : StringStyle.isMark c = true
    · have alone : rest.takeWhile StringStyle.isMark = [] := by
        cases rest with
        | nil => rfl
        | cons d rest =>
          have at_ : d ≠ '@' := by simpa using behind (d := '@') (by decide)
          have dollar : d ≠ '$' := by simpa using behind (d := '$') (by decide)
          exact List.takeWhile_cons_of_neg (by simp [StringStyle.isMark, at_, dollar])
      rw [stringMarks, List.takeWhile_cons_of_pos mark, alone]
      simp [behind (d := '"') (by decide)]
    · exact stringMarks_eq_none (eq_false_of_ne_true mark) rest
  have unstarted : rest.head?.any isWordStart = false := by
    cases rest with
    | nil => rfl
    | cons d rest =>
      rw [List.head?_cons, Option.any_some, ← Bool.not_eq_true]
      intro starts
      exact absurd ended.isWordRest (by simp [isWordRest_of_isWordStart starts])
  rw [pieceAt_plain blank (fun member => plain (by simp_all))
    (fun _ => ⟨behind (by decide), behind (by decide)⟩) unmarked, if_neg (by simp [unstarted]),
    if_neg (by simp [start]), if_neg (by simp [digit]),
    if_neg (by simp [behind (d := '>') (by decide)]),
    if_neg (by simp [behind (d := ':') (by decide)])]

/-- A lexeme is cut off whole where white space or nothing stands behind it. -/
theorem pieceAt_lexeme {kind : LexemeKind} {name : List Char} (lexeme : IsLexeme kind name (c :: s))
    (ended : EndsLexeme rest) :
    pieceAt lineStart c (s ++ rest) = .ok (.lexeme kind, s.length) := by
  cases lexeme with
  | word start wordly => exact pieceAt_word start wordly ended.isWordRest
  | marked start wordly => exact pieceAt_marked start wordly ended
  | number digit number => exact pieceAt_number digit number ended
  | string string => exact pieceAt_string string (ended.head_ne (by decide))
  | character quoted => exact pieceAt_character quoted
  | arrow => rfl
  | colons => rfl
  | mark blank start digit plain => exact pieceAt_other blank start digit plain ended

end

section

variable {lineStart : Bool} {s body rest : List Char}

theorem commentLength_block (open_ : ¬ ['*', '/'] <:+: body) (passed : Nat) (rest : List Char) :
    commentLength passed (body ++ '*' :: '/' :: rest) = some (passed + (body.length + 2)) := by
  induction body generalizing passed with
  | nil => rfl
  | cons c body ih =>
    have inside : ¬ ['*', '/'] <:+: body := fun found =>
      open_ (found.trans (List.suffix_cons c body).isInfix)
    have passing : commentLength passed (c :: (body ++ '*' :: '/' :: rest))
        = commentLength (passed + 1) (body ++ '*' :: '/' :: rest) := by
      rw [commentLength]
      rintro tail rfl closing
      cases body with
      | nil => cases closing
      | cons d body =>
        obtain ⟨rfl, -⟩ := List.cons.inj closing
        exact open_ (List.prefix_append ['*', '/'] body).isInfix
    rw [List.cons_append, passing, ih inside, List.length_cons]
    congr 1
    omega

theorem lineLength_line (line : '\n' ∉ body) : lineLength (body ++ '\n' :: rest) = body.length := by
  have inside : ∀ c ∈ body, decide (c ≠ '\n') = true := fun c member =>
    decide_eq_true fun same => line (same ▸ member)
  rw [lineLength, List.takeWhile_append_of_pos inside]
  simp

theorem pieceAt_blockComment (open_ : ¬ ['*', '/'] <:+: body) :
    pieceAt lineStart '/' ('*' :: (body ++ ['*', '/']) ++ rest)
      = .ok (.comment, ('*' :: (body ++ ['*', '/'])).length) := by
  have blank : Text.isBlank '/' = false := by decide
  have length := commentLength_block open_ 0 rest
  rw [List.cons_append, List.append_assoc]
  simp [pieceAt, blank, length]

theorem pieceAt_lineComment (line : '\n' ∉ body) :
    pieceAt lineStart '/' ('/' :: body ++ '\n' :: rest)
      = .ok (.comment, ('/' :: body).length) := by
  have blank : Text.isBlank '/' = false := by decide
  have length : lineLength ('/' :: body ++ '\n' :: rest) = ('/' :: body).length :=
    lineLength_line (by simp [line])
  simp only [pieceAt, blank, length]
  rfl

theorem pieceAt_directive (line : '\n' ∉ body) :
    pieceAt true '#' (body ++ '\n' :: rest) = .ok (.directive, body.length) := by
  have blank : Text.isBlank '#' = false := by decide
  simp [pieceAt, blank, lineLength_line line]

theorem pieceAt_blank {c : Char} (blank : Text.isBlank c = true) (other : c ≠ '\n') :
    pieceAt lineStart c rest = .ok (.blank, 0) := by
  rw [pieceAt, if_neg other, if_pos blank]

end

/-- A text is cut into the given pieces, whatever stands before it. -/
def Cuts (lineStart : Bool) (s : List Char) (found : List Piece) : Prop :=
  ∀ passed done, cutFrom passed lineStart done s = .ok (done.reverse ++ found)

section

variable {lineStart : Bool} {kind : PieceKind} {c : Char} {rest : List Char} {found : List Piece}

theorem Cuts.nil (lineStart : Bool) : Cuts lineStart [] [] := by
  intro passed done
  rw [cutFrom, List.append_nil]

theorem Cuts.cons (text : List Char)
    (piece : pieceAt lineStart c (text ++ rest) = .ok (kind, text.length))
    (behind : Cuts (kind.keepsLineStart lineStart) rest found) :
    Cuts lineStart (c :: text ++ rest) (⟨kind, c :: text⟩ :: found) := by
  intro passed done
  rw [List.cons_append, cutFrom_cons piece, List.take_left, List.drop_left, behind]
  simp

theorem locate_fillers {skipped : List Piece} (fillers : ∀ piece ∈ skipped, piece.IsFiller)
    (p : Position) : locate [] p (skipped ++ found)
      = locate [] (p.after (skipped.flatMap (·.text))) found := by
  induction skipped generalizing p with
  | nil => rfl
  | cons piece skipped ih =>
    rw [List.cons_append, List.flatMap_cons, Position.after_append,
      ← ih fun other member => fillers other (List.mem_cons_of_mem _ member),
      locate_cons_filler (fillers piece List.mem_cons_self)]

/-- A filler is cut into pieces that are no lexemes. -/
theorem IsFiller.cuts {s : List Char} (filler : IsFiller lineStart s)
    (behind : ∀ lineStart, Cuts lineStart rest found) :
    ∃ skipped : List Piece, Cuts lineStart (s ++ rest) (skipped ++ found) ∧
      (∀ piece ∈ skipped, piece.IsFiller) ∧ skipped.flatMap (·.text) = s := by
  induction filler with
  | done => exact ⟨[], behind _, by simp, rfl⟩
  | newline _ ih =>
    obtain ⟨skipped, cuts, fillers, same⟩ := ih
    exact ⟨⟨.newline, ['\n']⟩ :: skipped, Cuts.cons [] rfl cuts,
      by simpa [Piece.IsFiller] using fillers, by simp [same]⟩
  | blank blank other _ ih =>
    obtain ⟨skipped, cuts, fillers, same⟩ := ih
    exact ⟨⟨.blank, [_]⟩ :: skipped, Cuts.cons [] (pieceAt_blank blank other) cuts,
      by simpa [Piece.IsFiller] using fillers, by simp [same]⟩
  | blockComment comment _ ih =>
    obtain ⟨body, rfl, open_⟩ := comment
    obtain ⟨skipped, cuts, fillers, same⟩ := ih
    refine ⟨⟨.comment, '/' :: '*' :: (body ++ ['*', '/'])⟩ :: skipped, ?_,
      by simpa [Piece.IsFiller] using fillers, by simp [same]⟩
    rw [List.append_assoc]
    exact Cuts.cons _ (pieceAt_blockComment open_) cuts
  | lineComment comment _ ih =>
    obtain ⟨body, rfl, line⟩ := comment
    obtain ⟨skipped, cuts, fillers, same⟩ := ih
    refine ⟨⟨.comment, '/' :: '/' :: body⟩ :: ⟨.newline, ['\n']⟩ :: skipped, ?_,
      by simpa [Piece.IsFiller] using fillers, by simp [same]⟩
    rw [List.append_assoc]
    exact Cuts.cons _ (pieceAt_lineComment line) (Cuts.cons [] rfl cuts)
  | directive line _ ih =>
    obtain ⟨body, rfl, line⟩ := line
    obtain ⟨skipped, cuts, fillers, same⟩ := ih
    refine ⟨⟨.directive, '#' :: body⟩ :: ⟨.newline, ['\n']⟩ :: skipped, ?_,
      by simpa [Piece.IsFiller] using fillers, by simp [same]⟩
    rw [List.append_assoc]
    exact Cuts.cons _ (pieceAt_directive line) (Cuts.cons [] rfl cuts)

end

namespace WrittenLexeme

variable (l : WrittenLexeme)

theorem text_ne_nil : l.text ≠ [] := by
  obtain ⟨kind, name, text, lexeme⟩ := l
  cases lexeme with
  | string string =>
    cases string with
    | raw raw =>
      have := raw.opened
      simp
      omega
    | _ => simp
  | _ => simp

/-- A lexeme is cut off whole. -/
theorem cuts {lineStart : Bool} (rest : List Char) {found : List Piece} (ended : EndsLexeme rest)
    (behind : Cuts false rest found) :
    Cuts lineStart (l.text ++ rest) (⟨.lexeme l.kind, l.text⟩ :: found) := by
  obtain ⟨c, text, shape⟩ := List.exists_cons_of_ne_nil l.text_ne_nil
  have lexeme := l.isLexeme
  rw [shape] at lexeme ⊢
  exact Cuts.cons _ (pieceAt_lexeme lexeme ended) behind

theorem lexemeText_eq :
    (Piece.mk (.lexeme l.kind) l.text).lexemeText l.kind = String.ofList l.name := by
  obtain ⟨kind, name, text, lexeme⟩ := l
  cases lexeme with
  | @word c word start _ =>
    have unmarked : c ≠ '@' := ne_of_isWordStart start (by decide)
    simp [Piece.lexemeText, unmarked]
  | _ => simp [Piece.lexemeText]

theorem locate_eq (p : Position) (found : List Piece) :
    locate [] p (⟨.lexeme l.kind, l.text⟩ :: found)
      = l.token p :: locate [] (p.after l.text) found := by
  rw [locate_cons_lexeme rfl, l.lexemeText_eq]
  rfl

end WrittenLexeme

namespace LexicalText

/-- Lexemes with separators behind them are cut into pieces that make their tokens. -/
theorem cuts_spaced (spaced : List (WrittenLexeme × Separator)) (last : Option WrittenLexeme) :
    ∃ found,
      (∀ lineStart, Cuts lineStart (spacedText spaced ++ last.toList.flatMap (·.text)) found) ∧
      ∀ p, locate [] p found = tokensFrom p last spaced := by
  induction spaced with
  | nil =>
    cases last with
    | none => exact ⟨[], fun _ => Cuts.nil _, fun _ => rfl⟩
    | some l =>
      refine ⟨[⟨.lexeme l.kind, l.text⟩], fun _ => ?_, fun p => l.locate_eq p []⟩
      simpa [spacedText] using l.cuts [] rfl (Cuts.nil false)
  | cons item spaced ih =>
    obtain ⟨l, behind⟩ := item
    obtain ⟨found, cuts, located⟩ := ih
    obtain ⟨skipped, separated, fillers, same⟩ := behind.isFiller.cuts cuts
    refine ⟨⟨.lexeme l.kind, l.text⟩ :: (skipped ++ found), fun _ => ?_, fun p => ?_⟩
    · have ended :
          EndsLexeme (behind.text ++ (spacedText spaced ++ last.toList.flatMap (·.text))) := by
        have starts := behind.startsBlank
        rw [EndsLexeme]
        cases shape : behind.text with
        | nil => simp [shape] at starts
        | cons c text => simpa [shape] using starts
      simpa [spacedText] using l.cuts _ ended separated
    · rw [l.locate_eq, locate_fillers fillers, same, located, tokensFrom, Position.after_append]

end LexicalText

theorem withoutMark_of_head {s : List Char} (other : s.head? ≠ some '\ufeff') :
    withoutMark s = s := by
  cases s with
  | nil => rfl
  | cons c s =>
    have unmarked : c.toNat ≠ 0xfeff := fun same =>
      other (by rw [List.head?_cons, Char.ext (UInt32.toNat.inj same : c.val = '\ufeff'.val)])
    rw [withoutMark, if_neg unmarked]

theorem IsFiller.head_ne {lineStart : Bool} {s : List Char} (filler : IsFiller lineStart s) :
    s.head? ≠ some '\ufeff' := by
  cases filler with
  | done => simp
  | newline => simp
  | blank blank =>
    rintro same
    obtain rfl := Option.some.inj same
    exact absurd blank (by decide)
  | blockComment comment =>
    obtain ⟨body, rfl, -⟩ := comment
    simp
  | lineComment comment =>
    obtain ⟨body, rfl, -⟩ := comment
    simp
  | directive line =>
    obtain ⟨body, rfl, -⟩ := line
    simp

theorem WrittenLexeme.head_ne (l : WrittenLexeme) : l.text.head? ≠ some '\ufeff' := by
  obtain ⟨kind, name, text, lexeme⟩ := l
  intro same
  cases lexeme with
  | word start =>
    obtain rfl := Option.some.inj same
    exact absurd start (by decide +kernel)
  | number digit =>
    obtain rfl := Option.some.inj same
    exact absurd digit (by decide)
  | string string =>
    cases string with
    | @raw quotes body raw =>
      obtain ⟨n, rfl⟩ : ∃ n, quotes = n + 1 := ⟨quotes - 1, by have := raw.opened; omega⟩
      cases same
    | _ => cases same
  | mark _ _ _ plain =>
    obtain rfl := Option.some.inj same
    exact plain (by simp)
  | _ => cases same

theorem LexicalText.head_ne (t : LexicalText) : t.text.head? ≠ some '\ufeff' := by
  have append {a b : List Char} (first : a.head? ≠ some '\ufeff')
      (second : b.head? ≠ some '\ufeff') : (a ++ b).head? ≠ some '\ufeff' := by
    cases a with
    | nil => exact second
    | cons c a => simpa using first
  have spaced : (spacedText t.spaced).head? ≠ some '\ufeff' := by
    cases t.spaced with
    | nil => simp [spacedText]
    | cons item more =>
      obtain ⟨c, text, shape⟩ := List.exists_cons_of_ne_nil item.1.text_ne_nil
      have head := item.1.head_ne
      rw [shape] at head
      simpa [spacedText, shape] using head
  have last : (t.last.toList.flatMap (·.text)).head? ≠ some '\ufeff' := by
    cases t.last with
    | none => simp
    | some l => simpa using l.head_ne
  exact append t.isFiller.head_ne (append spaced last)

/-- The tokens of a text of lexemes are these lexemes where they stand, whatever separates them. -/
theorem tokens_lexicalText (t : LexicalText) : tokens (String.ofList t.text) = .ok t.tokens := by
  obtain ⟨found, cuts, located⟩ := LexicalText.cuts_spaced t.spaced t.last
  obtain ⟨skipped, whole, fillers, same⟩ := t.isFiller.cuts cuts
  have cut : pieces t.text = .ok (skipped ++ found) := whole 0 []
  rw [tokens, String.toList_ofList, withoutMark_of_head t.head_ne]
  dsimp only
  rw [cut]
  dsimp only
  rw [locate_fillers fillers, same, located]
  rfl

end ConventionLint.Source
