import ConventionLint.Proofs.Source.LexicalRoundTrip
import ConventionLint.Proofs.Source.Positions

/-!
# Verbatim literals

A verbatim literal holds any text, each quote written twice. It is cut off whole unless its text
starts with a quote: then it starts with three quotes or more and is taken for a raw literal, which
ends behind the first run of as many quotes, wherever that is.
-/
namespace ConventionLint.Source

/-- The pieces `found` are cut off a text, and `rest` remains. The flags tell whether only white space
stands before the text and the rest on their lines. -/
def CutsOff (lineStart : Bool) (text : List Char) : List Piece → Bool → List Char → Prop
  | [], stays, rest => stays = lineStart ∧ rest = text
  | piece :: found, stays, rest => ∃ c more behind, text = c :: (more ++ behind) ∧
      piece.text = c :: more ∧ pieceAt lineStart c (more ++ behind) = .ok (piece.kind, more.length) ∧
      CutsOff (piece.kind.keepsLineStart lineStart) behind found stays rest

/-- The tokens of a text that starts at a boundary between pieces, `passed` characters into the
source. -/
def lexFrom (passed : Nat) (lineStart : Bool) (p : Position) (s : List Char) :
    Except CutFault (List Token) :=
  (cutFrom passed lineStart [] s).map (locate [] p)

def CutFault.placeIn (text : List Char) (fault : CutFault) : Fault :=
  let p := Position.start.after (text.take fault.passed)
  ⟨fault.cause, p.line, p.column⟩

section

variable {source : String} {passed : Nat} {lineStart stays : Bool} {c : Char} {kind : PieceKind}
  {text rest : List Char} {found : List Piece}

theorem tokens_eq_lexFrom : tokens source =
    (lexFrom 0 true .start (withoutMark source.toList)).mapError
      (CutFault.placeIn (withoutMark source.toList)) := by
  rw [tokens, lexFrom, pieces]
  cases cutFrom 0 true [] (withoutMark source.toList) <;> rfl

theorem cutFrom_done (passed : Nat) (lineStart : Bool) (done : List Piece) (s : List Char) :
    cutFrom passed lineStart done s = (cutFrom passed lineStart [] s).map (done.reverse ++ ·) := by
  induction size : s.length using Nat.strongRecOn generalizing passed lineStart done s with
  | ind n ih =>
    cases s with
    | nil =>
      rw [cutFrom, cutFrom]
      simp [Except.map]
    | cons c s =>
      cases piece : pieceAt lineStart c s with
      | error fault =>
        obtain ⟨cause, n⟩ := fault
        rw [cutFrom, cutFrom, piece]
        rfl
      | ok cut =>
        obtain ⟨kind, m⟩ := cut
        have shorter : (s.drop m).length < n := by
          rw [← size, List.length_drop, List.length_cons]
          omega
        rw [cutFrom_cons piece, cutFrom_cons piece, ih _ shorter _ _ _ _ rfl,
          ih _ shorter _ _ [_] _ rfl]
        cases cutFrom (passed + m + 1) (kind.keepsLineStart lineStart) [] (s.drop m) with
        | error fault => rfl
        | ok found => simp [Except.map]

theorem locate_cons (p : Position) (piece : Piece) (found : List Piece) :
    locate [] p (piece :: found) = locate [] p [piece] ++ locate [] (p.after piece.text) found := by
  rw [locate, locate]
  split
  · rw [locate_eq]
    rfl
  · rfl

/-- One piece further: its token, if it is a lexeme, comes first. -/
theorem lexFrom_piece {more : List Char} (p : Position)
    (piece : pieceAt lineStart c (more ++ rest) = .ok (kind, more.length)) :
    lexFrom passed lineStart p (c :: (more ++ rest)) =
      (lexFrom (passed + (more.length + 1)) (kind.keepsLineStart lineStart) (p.after (c :: more))
        rest).map (locate [] p [⟨kind, c :: more⟩] ++ ·) := by
  rw [lexFrom, cutFrom_cons piece, List.take_left, List.drop_left, cutFrom_done, lexFrom,
    Nat.add_assoc]
  cases cutFrom (passed + (more.length + 1)) (kind.keepsLineStart lineStart) [] rest with
  | error fault => rfl
  | ok found =>
    simp only [Except.map, List.reverse_singleton, List.singleton_append]
    rw [locate_cons]

/-- From one boundary to a later one, by induction on the pieces between them. -/
theorem lexFrom_cutsOff (cut : CutsOff lineStart text found stays rest) (passed : Nat)
    (p : Position) : lexFrom passed lineStart p text =
      (lexFrom (passed + (found.flatMap (·.text)).length) stays (p.after (found.flatMap (·.text)))
        rest).map (locate [] p found ++ ·) := by
  induction found generalizing lineStart text passed p with
  | nil =>
    obtain ⟨rfl, rfl⟩ := cut
    cases lexed : lexFrom passed stays p rest <;> simp [lexed, Except.map, locate]
  | cons piece found ih =>
    obtain ⟨c, more, behind, rfl, shape, taken, cut⟩ := cut
    have same : (⟨piece.kind, c :: more⟩ : Piece) = piece := by rw [← shape]
    have passing : passed + (piece.text ++ found.flatMap (·.text)).length
        = passed + (more.length + 1) + (found.flatMap (·.text)).length := by
      rw [shape, List.length_append, List.length_cons, ← Nat.add_assoc]
    rw [lexFrom_piece p taken, ih cut, same, List.flatMap_cons, passing, Position.after_append,
      shape, locate_cons p piece found, shape]
    cases lexFrom (passed + (more.length + 1) + (found.flatMap (·.text)).length) stays
      ((p.after (c :: more)).after (found.flatMap (·.text))) rest with
    | error fault => rfl
    | ok ts => simp only [Except.map, List.append_assoc]

end

def doubled (t : List Char) : List Char :=
  t.flatMap fun c => if c = '"' then ['"', '"'] else [c]

def verbatim (t : List Char) : List Char :=
  '@' :: '"' :: (doubled t ++ ['"'])

/-- No run of quotes in a text is longer than `n`, but for the one at its end, which is no shorter. -/
inductive ClosedBy (n : Nat) : List Char → Prop where
  | last {run : Nat} : n ≤ run → ClosedBy n (List.replicate run '"')
  | run {run : Nat} {c : Char} {s : List Char} : run ≤ n → c ≠ '"' → ClosedBy n s →
    ClosedBy n (List.replicate run '"' ++ c :: s)

/-- Whether the literal of a text is cut off where it ends. A text that starts with quotes must end
with as many, and have no more of them in between. -/
inductive IsHeld : List Char → Prop where
  | plain {t : List Char} : t.head? ≠ some '"' → IsHeld t
  | quoted {n : Nat} {c : Char} {s : List Char} : c ≠ '"' → ClosedBy (n + 1) s →
    IsHeld (List.replicate (n + 1) '"' ++ c :: s)

section

variable {t s rest : List Char} {c : Char} {n run : Nat} {frames : List Frame}

@[simp] theorem doubled_nil : doubled [] = [] := rfl

@[simp] theorem doubled_quote (t : List Char) : doubled ('"' :: t) = '"' :: '"' :: doubled t := rfl

theorem doubled_cons (other : c ≠ '"') (t : List Char) : doubled (c :: t) = c :: doubled t := by
  simp [doubled, other]

theorem doubled_run (run : Nat) (t : List Char) :
    doubled (List.replicate run '"' ++ t) = List.replicate (2 * run) '"' ++ doubled t := by
  induction run with
  | zero => rfl
  | succ run ih =>
    rw [List.replicate_succ, List.cons_append, doubled_quote, ih, Nat.mul_succ,
      List.replicate_succ, List.replicate_succ]
    rfl

theorem head_doubled (other : t.head? ≠ some '"') : (doubled t).head? ≠ some '"' := by
  cases t with
  | nil => simp
  | cons c t =>
    have plain : c ≠ '"' := by simpa using other
    simpa [doubled_cons plain] using plain

/-- Behind one opening quote the doubled text is read up to the closing quote. -/
theorem passes_doubled (frames : List Frame) (t : List Char) (other : rest.head? ≠ some '"') :
    Passes (.text ⟨true, false⟩ :: frames) (doubled t ++ ['"']) frames rest := by
  induction t with
  | nil =>
    refine Passes.step [] [] ?_
    simp [Frame.step, other]
  | cons c t ih =>
    by_cases quote : c = '"'
    · subst quote
      exact (Passes.step ['"'] [.text ⟨true, false⟩] rfl).trans ih
    · rw [doubled_cons quote]
      refine Passes.cons [.text ⟨true, false⟩] ?_ ih
      simp [Frame.step, quote]

theorem doubled_last (run : Nat) :
    doubled (List.replicate run '"') ++ ['"'] = List.replicate (2 * run + 1) '"' := by
  have whole := doubled_run run []
  rw [List.append_nil, doubled_nil, List.append_nil] at whole
  rw [whole, List.replicate_succ']

theorem doubled_behind_run (run : Nat) (other : c ≠ '"') (s : List Char) :
    doubled (List.replicate run '"' ++ c :: s) ++ ['"']
      = List.replicate (2 * run) '"' ++ (c :: (doubled s ++ ['"'])) := by
  rw [doubled_run, doubled_cons other, List.append_assoc, List.cons_append]

theorem passes_raw_other (other : c ≠ '"') (rest : List Char) :
    Passes (.raw n :: frames) [c] (.raw n :: frames) rest := by
  refine Passes.step [] [.raw n] ?_
  rw [Frame.step, if_neg other]
  rfl

/-- The opening quote and `n` doubled ones make a raw literal, and a text closed by `n` closes it. -/
theorem ClosedBy.passes (closed : ClosedBy n s) (other : rest.head? ≠ some '"') :
    Passes (.raw (2 * n + 1) :: frames) (doubled s ++ ['"']) frames rest := by
  induction closed with
  | last enough =>
    rw [doubled_last]
    exact passes_raw_close (Nat.succ_pos _) (by omega) other
  | @run run c s few plain closed ih =>
    rw [doubled_behind_run run plain]
    exact (passes_raw_run (by omega) (by simpa using plain)).trans
      ((passes_raw_other plain _).trans ih)

theorem le_of_literalLength {passed skip : Nat} {frames : List Frame}
    (read : literalLength passed skip frames s = .ok n) : passed ≤ n := by
  fun_induction literalLength passed skip frames s with
  | case1 | case2 => exact Nat.le_of_eq (Except.ok.inj read)
  | case3 => cases read
  | case4 _ _ _ _ _ ih => exact Nat.le_of_succ_le (ih read)
  | case5 => cases read
  | case6 _ _ _ _ _ _ _ _ ih => exact Nat.le_of_succ_le (ih read)

/-- An open frame takes at least one more character. -/
theorem lt_of_literalLength {passed skip : Nat} {frame : Frame}
    (read : literalLength passed skip (frame :: frames) s = .ok n) : passed < n := by
  cases s with
  | nil => cases skip <;> cases read
  | cons c s =>
    cases skip with
    | succ skip => exact Nat.lt_of_succ_le (le_of_literalLength read)
    | zero =>
      rw [literalLength] at read
      split at read
      · cases read
      · exact Nat.lt_of_succ_le (le_of_literalLength read)

/-- What is left of an exact reading behind a first part. -/
theorem Passes.exact_behind {passed : Nat} {middle : List Frame} {a b : List Char}
    (first : Passes frames a middle (b ++ rest))
    (read : literalLength passed 0 frames (a ++ b ++ rest) = .ok (passed + (a ++ b).length)) :
    literalLength (passed + a.length) 0 middle (b ++ rest)
      = .ok (passed + a.length + b.length) := by
  rw [List.append_assoc, first] at read
  rw [read, List.length_append, Nat.add_assoc]

/-- Only a text closed by `n` is read up to the quote behind it and no further. -/
theorem closedBy_of_literalLength {passed : Nat} (s : List Char) (other : rest.head? ≠ some '"')
    (read : literalLength passed 0 [.raw (2 * n + 1)] (doubled s ++ ['"'] ++ rest)
      = .ok (passed + (doubled s ++ ['"']).length)) : ClosedBy n s := by
  -- a run of quotes is read as a whole, so the induction is on the length
  induction size : s.length using Nat.strongRecOn generalizing s passed with
  | ind m ih =>
    obtain ⟨run, tail, rfl, unquoted⟩ := exists_quoteRun s
    cases tail with
    | nil =>
      rw [List.append_nil] at read ⊢
      refine .last (Nat.le_of_not_lt fun few => ?_)
      -- too few quotes leave the frame open, so the literal goes on
      rw [doubled_last, passes_raw_run (by omega) other] at read
      exact Nat.lt_irrefl _ (lt_of_literalLength read)
    | cons c tail =>
      have plain : c ≠ '"' := by simpa using unquoted
      have head : (c :: (doubled tail ++ ['"']) ++ rest).head? ≠ some '"' := by simpa using plain
      rw [doubled_behind_run run plain] at read
      by_cases few : run ≤ n
      · have shorter : tail.length < m := by
          rw [← size, List.length_append, List.length_cons]
          omega
        have behind := (passes_raw_run (by omega) head).exact_behind read
        exact .run few plain
          (ih _ shorter tail ((passes_raw_other plain _).exact_behind (a := [c]) behind) rfl)
      · -- enough quotes in the middle end the literal there
        have behind := (passes_raw_close (Nat.succ_pos _) (by omega) head).exact_behind read
        rw [literalLength] at behind
        have short := Except.ok.inj behind
        rw [List.length_cons] at short
        omega

end

section

variable {t s rest : List Char} {lineStart : Bool}

/-- Three quotes or more open a raw literal, whatever the marks before them. -/
theorem stringLength_marked_run (quotes : Nat) (many : 3 ≤ quotes) (other : s.head? ≠ some '"') :
    stringLength ['@'] ('@' :: (List.replicate quotes '"' ++ s))
      = literalLength (quotes + 1) 0 [.raw quotes] s := by
  have opening : Frame.opening (.ofMarks ['@']) (List.replicate quotes '"' ++ s)
      = (quotes, .raw quotes) := by
    rw [Frame.opening, quoteRun_replicate quotes other, if_pos many]
  have skipped := literalLength_skip 0 [.raw quotes] ('@' :: List.replicate quotes '"') s
  rw [List.length_cons, List.length_replicate, Nat.zero_add] at skipped
  rw [stringLength, List.length_singleton, List.drop_succ_cons, List.drop_zero, opening]
  dsimp only
  rw [Nat.add_comm 1, ← skipped, List.cons_append]

/-- The literal of a text whose quotes at the start are `n + 1`. -/
theorem stringLength_verbatim_run (n : Nat) (t rest : List Char)
    (other : (doubled t ++ ['"'] ++ rest).head? ≠ some '"') :
    stringLength ['@'] (verbatim (List.replicate (n + 1) '"' ++ t) ++ rest)
      = literalLength (2 * (n + 1) + 2) 0 [.raw (2 * (n + 1) + 1)] (doubled t ++ ['"'] ++ rest) := by
  have opened := stringLength_marked_run (2 * (n + 1) + 1) (by omega) other
  rw [← opened, verbatim, doubled_run, List.replicate_succ]
  simp only [List.cons_append, List.append_assoc]

theorem length_verbatim_run (n : Nat) (t : List Char) :
    (verbatim (List.replicate (n + 1) '"' ++ t)).length
      = 2 * (n + 1) + 2 + (doubled t ++ ['"']).length := by
  rw [verbatim, doubled_run]
  simp only [List.length_cons, List.length_append, List.length_replicate]
  omega

theorem stringLength_of_isHeld (held : IsHeld t) (other : rest.head? ≠ some '"') :
    stringLength ['@'] (verbatim t ++ rest) = .ok (verbatim t).length := by
  cases held with
  | plain unquoted =>
    have opened : Frame.opening (.ofMarks ['@']) ('"' :: (doubled t ++ ['"'] ++ rest))
        = (1, .text ⟨true, false⟩) := by
      rw [List.append_assoc]
      exact opening_closed (head_doubled unquoted) other
    have length := stringLength_of_opening ['@'] ['@', '"'] opened rfl
      (passes_doubled [] t other)
    rw [List.length_cons, List.length_singleton, Nat.add_comm] at length
    exact length
  | @quoted n c s plain closed =>
    have head : (doubled (c :: s) ++ ['"'] ++ rest).head? ≠ some '"' := by
      simpa [doubled_cons plain] using plain
    have read : Passes [.raw (2 * (n + 1) + 1)] (c :: (doubled s ++ ['"'])) [] rest :=
      (passes_raw_other plain _).trans (closed.passes other)
    rw [stringLength_verbatim_run n _ rest head, length_verbatim_run, doubled_cons plain]
    exact (read _).trans (by rw [literalLength]; rfl)

theorem isHeld_of_stringLength (other : rest.head? ≠ some '"')
    (read : stringLength ['@'] (verbatim t ++ rest) = .ok (verbatim t).length) : IsHeld t := by
  obtain ⟨run, tail, rfl, unquoted⟩ := exists_quoteRun t
  cases run with
  | zero => exact .plain unquoted
  | succ n =>
    cases tail with
    | nil =>
      -- the closing quote is one more of the opening ones, and nothing closes them
      have opened := stringLength_marked_run (2 * (n + 1) + 2) (by omega) other
      have whole : verbatim (List.replicate (n + 1) '"' ++ [])
          = '@' :: List.replicate (2 * (n + 1) + 2) '"' := by
        rw [List.append_nil, verbatim, doubled_last, ← List.replicate_succ]
      rw [whole, List.cons_append, opened, List.length_cons, List.length_replicate] at read
      exact absurd (lt_of_literalLength read) (Nat.lt_irrefl _)
    | cons c s =>
      have plain : c ≠ '"' := by simpa using unquoted
      have head : (doubled (c :: s) ++ ['"'] ++ rest).head? ≠ some '"' := by
        simpa [doubled_cons plain] using plain
      rw [stringLength_verbatim_run n _ rest head, length_verbatim_run, doubled_cons plain] at read
      exact .quoted plain (closedBy_of_literalLength s other
        ((passes_raw_other plain _).exact_behind (a := [c]) read))

theorem pieceAt_marked_quote (s : List Char) : pieceAt lineStart '@' ('"' :: s) =
    (stringLength ['@'] ('@' :: '"' :: s)).map fun n => (.lexeme .literal, n - 1) := by
  have blank : Text.isBlank '@' = false := by decide
  have marks : stringMarks ('@' :: '"' :: s) = some ['@'] := rfl
  simp [pieceAt, blank, marks]

theorem stringLength_pos {marks : List Char} {n : Nat} (read : stringLength marks s = .ok n) :
    0 < n :=
  lt_of_literalLength read

/-- The literal of a text is the next piece if and only if the text is held. -/
theorem cutsOff_verbatim_iff (t : List Char) (other : rest.head? ≠ some '"') :
    CutsOff lineStart (verbatim t ++ rest) [⟨.lexeme .literal, verbatim t⟩] false rest
      ↔ IsHeld t := by
  constructor
  · rintro ⟨c, more, behind, whole, shape, taken, -, rfl⟩
    obtain ⟨rfl, rfl⟩ := List.cons.inj shape
    have cut : pieceAt lineStart '@' ('"' :: (doubled t ++ ['"'] ++ rest))
        = .ok (.lexeme .literal, (doubled t ++ ['"']).length + 1) := taken
    rw [pieceAt_marked_quote] at cut
    cases read : stringLength ['@'] (verbatim t ++ rest) with
    | error fault =>
      rw [verbatim, List.cons_append, List.cons_append] at read
      rw [read] at cut
      cases cut
    | ok n =>
      refine isHeld_of_stringLength other (read.trans ?_)
      have positive := stringLength_pos read
      rw [verbatim, List.cons_append, List.cons_append] at read
      rw [read] at cut
      have same : n - 1 = (doubled t ++ ['"']).length + 1 := (Prod.mk.inj (Except.ok.inj cut)).2
      rw [verbatim, List.length_cons, List.length_cons, ← same, Nat.sub_add_cancel positive]
  · intro held
    refine ⟨'@', '"' :: (doubled t ++ ['"']), rest, rfl, rfl, ?_, rfl, rfl⟩
    have read := stringLength_of_isHeld held other
    rw [verbatim, List.cons_append, List.cons_append] at read
    rw [List.cons_append, pieceAt_marked_quote, read]
    rfl

end

/-- A verbatim literal at a boundary of a source is one token that stands where the text before it
ends, and lexing goes on right behind it, the place moved over its newlines. This is so if and only
if the text is held: the literal of any other text is not the next piece. -/
theorem tokens_verbatim {source : String} {found : List Piece} {lineStart : Bool} {rest : List Char}
    (t : List Char)
    (boundary : CutsOff true (withoutMark source.toList) found lineStart (verbatim t ++ rest))
    (other : rest.head? ≠ some '"') :
    let before := found.flatMap (·.text)
    let p := Position.start.after before
    let behind := p.after (verbatim t)
    (CutsOff lineStart (verbatim t ++ rest) [⟨.lexeme .literal, verbatim t⟩] false rest
      ↔ IsHeld t) ∧
    (IsHeld t → tokens source =
      ((lexFrom (before.length + (verbatim t).length) false behind rest).map fun ts =>
        locate [] .start found ++ ⟨.literal, String.ofList (verbatim t), p⟩ :: ts).mapError
          (CutFault.placeIn (withoutMark source.toList))) ∧
    IsBehind before p ∧ IsBehind (before ++ verbatim t) behind := by
  intro before p behind
  have start : IsBehind [] .start := ⟨rfl, rfl⟩
  have placed : IsBehind before p := start.after before
  refine ⟨cutsOff_verbatim_iff t other, fun held => ?_, placed, placed.after (verbatim t)⟩
  have cut : CutsOff lineStart (verbatim t ++ rest) [⟨.lexeme .literal, verbatim t⟩] false rest :=
    (cutsOff_verbatim_iff t other).mpr held
  have text : [(⟨.lexeme .literal, verbatim t⟩ : Piece)].flatMap (·.text) = verbatim t := by
    rw [List.flatMap_singleton]
  have token : locate [] p [⟨.lexeme .literal, verbatim t⟩]
      = [⟨.literal, String.ofList (verbatim t), p⟩] := rfl
  rw [tokens_eq_lexFrom, lexFrom_cutsOff boundary, lexFrom_cutsOff cut, text, token, Nat.zero_add]
  congr 1
  cases lexFrom (before.length + (verbatim t).length) false behind rest <;> rfl

/-- A text between quotes is held, and its newline starts a line. -/
theorem tokens_verbatim_betweenQuotes :
    (CutsOff true (withoutMark "(@\"\"\"a\n\"\"\")".toList) [⟨.lexeme .punctuation, ['(']⟩] false
        (verbatim ['"', 'a', '\n', '"'] ++ [')']) ∧
      [')'].head? ≠ some '"') ∧
    tokens "(@\"\"\"a\n\"\"\")" = .ok [⟨.punctuation, "(", ⟨1, 1⟩⟩,
      ⟨.literal, String.ofList (verbatim ['"', 'a', '\n', '"']), ⟨1, 2⟩⟩,
      ⟨.punctuation, ")", ⟨2, 4⟩⟩] := by
  have boundary : CutsOff true (withoutMark "(@\"\"\"a\n\"\"\")".toList)
      [⟨.lexeme .punctuation, ['(']⟩] false (verbatim ['"', 'a', '\n', '"'] ++ [')']) :=
    ⟨'(', [], _, rfl, rfl, by decide, rfl, rfl⟩
  have other : [')'].head? ≠ some '"' := by decide
  have closed : ClosedBy 1 ['\n', '"'] := .run (Nat.zero_le 1) (by decide) (.last (Nat.le_refl 1))
  have held : IsHeld ['"', 'a', '\n', '"'] := .quoted (by decide) closed
  refine ⟨⟨boundary, other⟩, ?_⟩
  rw [(tokens_verbatim _ boundary other).2.1 held]
  decide +kernel

/-- A quote at the start of a text is taken for the opening of a raw literal. -/
theorem verbatim_read_as_raw :
    (¬∀ (t : List Char) (source : String) (found : List Piece) (lineStart : Bool) (c : Char)
      (rest : List Char),
      CutsOff true (withoutMark source.toList) found lineStart (verbatim t ++ c :: rest) →
      c ≠ '"' →
      CutsOff lineStart (verbatim t ++ c :: rest) [⟨.lexeme .literal, verbatim t⟩] false
        (c :: rest)) ∧
    tokens "class A \x7b string S = @\"\"\"a\"; \x7d" =
      .error ⟨.unterminatedRawString, 1, 31⟩ := by
  constructor
  · intro claim
    have cut := claim ['"', 'a'] (String.ofList (verbatim ['"', 'a'] ++ [';'])) [] true ';' []
      ⟨rfl, by decide⟩ (by decide)
    obtain ⟨c, more, behind, whole, -, taken, -⟩ := cut
    obtain ⟨rfl, inside⟩ := List.cons.inj whole
    -- what stands there is a fault, whatever is claimed to be cut off
    have fault : pieceAt true '@' ['"', '"', '"', 'a', '"', ';']
        = .error (.unterminatedRawString, 7) := by
      decide
    have both : pieceAt true '@' (more ++ behind) = .error (.unterminatedRawString, 7) :=
      inside ▸ fault
    cases both.symm.trans taken
  · decide +kernel

end ConventionLint.Source
