import ConventionLint.Proofs.Source.LexicalGrammar

/-!
# Reading literals

How far a literal of the lexical grammar reaches. A text takes the reader from one stack of frames to
another; texts behind one another compose, and the frames below the ones at hand do not matter. A
string inside a hole leaves the hole's frame on top, whatever style the text around the hole has.
-/
namespace ConventionLint.Source

/-- Reading `s`, with `rest` behind it, turns the stack `frames` into `left`. -/
def Passes (frames : List Frame) (s : List Char) (left : List Frame) (rest : List Char) : Prop :=
  ∀ passed, literalLength passed 0 frames (s ++ rest)
    = literalLength (passed + s.length) 0 left rest

namespace Passes

variable {frames middle left : List Frame} {frame : Frame} {c : Char} {a b rest : List Char}

theorem nothing (frames : List Frame) (rest : List Char) : Passes frames [] frames rest :=
  fun _ => rfl

theorem trans (first : Passes frames a middle (b ++ rest)) (second : Passes middle b left rest) :
    Passes frames (a ++ b) left rest := by
  intro passed
  rw [List.append_assoc, first, second, List.length_append, Nat.add_assoc]

end Passes

/-- Characters that go with the last one are passed over. -/
theorem literalLength_skip (passed : Nat) (frames : List Frame) (a rest : List Char) :
    literalLength passed a.length frames (a ++ rest)
      = literalLength (passed + a.length) 0 frames rest := by
  induction a generalizing passed with
  | nil => rfl
  | cons c a ih =>
    have passing : literalLength passed (a.length + 1) frames (c :: (a ++ rest))
        = literalLength (passed + 1) a.length frames (a ++ rest) := by
      cases frames <;> rfl
    rw [List.length_cons, List.cons_append, passing, ih, Nat.add_assoc, Nat.add_comm 1]

namespace Passes

variable {frames middle left : List Frame} {frame : Frame} {c : Char} {a b rest : List Char}

/-- One step takes a character and those that go with it. -/
theorem step (a : List Char) (inner : List Frame)
    (taken : frame.step c (a ++ rest) = .ok (a.length, inner)) :
    Passes (frame :: frames) (c :: a) (inner ++ frames) rest := by
  intro passed
  rw [List.cons_append, literalLength, taken]
  dsimp only
  rw [literalLength_skip, List.length_cons, Nat.add_assoc, Nat.add_comm 1]

theorem cons (inner : List Frame) (taken : frame.step c (a ++ rest) = .ok (0, inner))
    (behind : Passes (inner ++ frames) a left rest) : Passes (frame :: frames) (c :: a) left rest :=
  (step [] inner taken).trans behind

end Passes

theorem quoteRun_of_head {s : List Char} (other : s.head? ≠ some '"') : quoteRun s = 0 := by
  cases s with
  | nil => rfl
  | cons c s => simpa [quoteRun, List.takeWhile_cons] using other

theorem quoteRun_replicate (n : Nat) {s : List Char} (other : s.head? ≠ some '"') :
    quoteRun (List.replicate n '"' ++ s) = n := by
  have ended : s.takeWhile (· = '"') = [] := by
    simpa [quoteRun] using quoteRun_of_head other
  rw [quoteRun, List.takeWhile_append_of_pos (by simp), ended]
  simp

/-- Fewer than three quotes open an ordinary literal. -/
theorem opening_of_short {style : StringStyle} {s : List Char} (short : quoteRun s < 3) :
    Frame.opening style s = (1, .text style) := by
  rw [Frame.opening, if_neg (by omega)]

/-- What is closed by a quote starts with at most two of them, unless one follows. -/
theorem quoteRun_closed {s rest : List Char} (unquoted : s.head? ≠ some '"')
    (ended : rest.head? ≠ some '"') : quoteRun ('"' :: (s ++ '"' :: rest)) < 3 := by
  cases s with
  | nil =>
    have two := quoteRun_replicate 2 ended
    rw [List.nil_append, show '"' :: '"' :: rest = List.replicate 2 '"' ++ rest from rfl, two]
    decide
  | cons c s =>
    have one := quoteRun_replicate 1 (s := c :: s ++ '"' :: rest) (by simpa using unquoted)
    rw [show '"' :: (c :: s ++ '"' :: rest) = List.replicate 1 '"' ++ (c :: s ++ '"' :: rest)
      from rfl, one]
    decide

/-- A text is a run of quotes and what does not start with one. -/
theorem exists_quoteRun (s : List Char) : ∃ run tail, s = List.replicate run '"' ++ tail ∧
    tail.head? ≠ some '"' := by
  induction s with
  | nil => exact ⟨0, [], rfl, by simp⟩
  | cons c s ih =>
    by_cases quote : c = '"'
    · obtain ⟨run, tail, rfl, other⟩ := ih
      exact ⟨run + 1, tail, by rw [quote]; rfl, other⟩
    · exact ⟨0, c :: s, rfl, by simpa using quote⟩

section

variable {quotes : Nat} {frames : List Frame} {rest : List Char}

/-- The step of a raw frame at a run of quotes. -/
theorem step_raw_run (run : Nat) (other : rest.head? ≠ some '"') :
    Frame.step (.raw quotes) '"' (List.replicate run '"' ++ rest)
      = .ok (run, if quotes ≤ run + 1 then [] else [.raw quotes]) := by
  have whole : quoteRun ('"' :: (List.replicate run '"' ++ rest)) = run + 1 :=
    quoteRun_replicate (run + 1) other
  rw [Frame.step, if_pos rfl, whole]
  rfl

theorem passes_raw_close {run : Nat} (positive : 0 < quotes) (enough : quotes ≤ run)
    (other : rest.head? ≠ some '"') :
    Passes (.raw quotes :: frames) (List.replicate run '"') frames rest := by
  obtain ⟨n, rfl⟩ : ∃ n, run = n + 1 := ⟨run - 1, by omega⟩
  refine Passes.step _ [] ?_
  rw [step_raw_run n other, if_pos enough, List.length_replicate]

theorem passes_raw_run {run : Nat} (few : run < quotes) (other : rest.head? ≠ some '"') :
    Passes (.raw quotes :: frames) (List.replicate run '"') (.raw quotes :: frames) rest := by
  cases run with
  | zero => exact .nothing _ _
  | succ n =>
    refine Passes.step _ [.raw quotes] ?_
    rw [step_raw_run n other, if_neg (by omega), List.length_replicate]

/-- A raw body is read together with the quotes that close it. -/
theorem passes_raw (positive : 0 < quotes) (body : List Char)
    (shorter : ¬ List.replicate quotes '"' <:+: body) (other : rest.head? ≠ some '"') :
    Passes (.raw quotes :: frames) (body ++ List.replicate quotes '"') frames rest := by
  -- a run of quotes is read as a whole, so the induction is on the length
  induction size : body.length using Nat.strongRecOn generalizing body with
  | ind n ih =>
    obtain ⟨run, tail, rfl, unquoted⟩ := exists_quoteRun body
    cases tail with
    | nil =>
      rw [List.append_nil, List.replicate_append_replicate]
      exact passes_raw_close positive (Nat.le_add_left _ _) other
    | cons c tail =>
      have few : run < quotes := by
        refine Nat.lt_of_not_le fun many => shorter ?_
        obtain ⟨more, rfl⟩ := Nat.exists_eq_add_of_le many
        rw [← List.replicate_append_replicate, List.append_assoc]
        exact (List.prefix_append _ _).isInfix
      have quote : c ≠ '"' := by simpa using unquoted
      have inside : ¬ List.replicate quotes '"' <:+: tail := fun found =>
        shorter (found.trans ((List.suffix_cons c tail).trans (List.suffix_append _ _)).isInfix)
      have fewer : tail.length < n := by
        rw [← size]
        simp only [List.length_append, List.length_cons]
        omega
      rw [List.append_assoc, List.cons_append]
      refine (passes_raw_run few (by simpa using quote)).trans
        (Passes.cons [.raw quotes] ?_ (ih _ fewer tail inside rfl))
      rw [Frame.step, if_neg quote]

end

/-- The style of a string whose only mark is a dollar sign. -/
def StringStyle.holed : StringStyle := ⟨false, true⟩

section

variable (frames : List Frame) {s rest : List Char}

theorem passes_quoted (quoted : IsQuoted '"' s) :
    Passes (.text .plain :: frames) (s ++ ['"']) frames rest := by
  induction quoted with
  | done => exact Passes.step [] [] rfl
  | escape c _ ih => exact (Passes.step [c] [.text .plain] rfl).trans ih
  | @plain c s quote escape newline _ ih =>
    refine Passes.cons [.text .plain] ?_ ih
    simp [Frame.step, StringStyle.plain, quote, escape, newline]

theorem passes_character (quoted : IsQuoted '\'' s) :
    Passes (.character :: frames) (s ++ ['\'']) frames rest := by
  induction quoted with
  | done => exact Passes.step [] [] rfl
  | escape c _ ih => exact (Passes.step [c] [.character] rfl).trans ih
  | @plain c s quote escape newline _ ih =>
    refine Passes.cons [.character] ?_ ih
    simp [Frame.step, quote, escape, newline]

theorem characterLength_quoted (quoted : IsQuoted '\'' s) (passed : Nat) (rest : List Char) :
    characterLength passed (s ++ '\'' :: rest) = passed + (s.length + 1) := by
  induction quoted generalizing passed with
  | done => rfl
  | @escape s c _ ih =>
    rw [List.cons_append, List.cons_append, characterLength, ih]
    simp only [List.length_cons]
    omega
  | @plain c s quote escape newline _ ih =>
    have passing : characterLength passed (c :: (s ++ '\'' :: rest))
        = characterLength (passed + 1) (s ++ '\'' :: rest) := by
      rw [characterLength]
      all_goals intros; contradiction
    rw [List.cons_append, passing, ih, List.length_cons]
    omega

end

theorem IsQuoted.head_ne {mark : Char} {s : List Char} (quoted : IsQuoted mark s)
    (other : mark ≠ '\\') : s.head? ≠ some mark := by
  cases quoted with
  | done => simp
  | escape => simpa using other.symm
  | plain unmarked => simpa using unmarked

theorem IsInterpolated.head_ne {s : List Char} (text : IsInterpolated s) :
    s.head? ≠ some '"' := by
  cases text with
  | plain plain =>
    simp only [List.mem_cons, not_or] at plain
    simpa using plain.1
  | _ => simp

section

variable {style : StringStyle} {s rest : List Char}

theorem opening_closed (unquoted : s.head? ≠ some '"') (other : rest.head? ≠ some '"') :
    Frame.opening style ('"' :: (s ++ '"' :: rest)) = (1, .text style) :=
  opening_of_short (quoteRun_closed unquoted other)

theorem opening_raw (style : StringStyle) {quotes : Nat} (raw : IsRawBody quotes s)
    (rest : List Char) :
    Frame.opening style (List.replicate quotes '"' ++ (s ++ rest)) = (quotes, .raw quotes) := by
  have whole : quoteRun (List.replicate quotes '"' ++ (s ++ rest)) = quotes := by
    refine quoteRun_replicate quotes ?_
    obtain ⟨c, body, rfl⟩ := List.exists_cons_of_ne_nil raw.filled
    exact raw.starts
  rw [Frame.opening, whole, if_pos raw.opened]

theorem step_opens_hole (single : rest.head? ≠ some '\x7b') :
    Frame.step (.text .holed) '\x7b' rest = .ok (0, [.hole .holed 0]) := by
  have other : ¬ (rest.head? = some '\x7b') := single
  simp only [Frame.step, if_neg other]
  rfl

theorem step_hole_quote {braces n : Nat} {inner : Frame}
    (opened : Frame.opening .plain ('"' :: rest) = (n + 1, inner)) :
    Frame.step (.hole style braces) '"' rest = .ok (n, [inner, .hole style braces]) := by
  simp [Frame.step, opened]

theorem step_hole_dollar {braces n : Nat} {inner : Frame}
    (opened : Frame.opening .holed ('"' :: rest) = (n, inner)) :
    Frame.step (.hole style braces) '$' ('"' :: rest) = .ok (n, [inner, .hole style braces]) := by
  have marks : stringMarks ('$' :: '"' :: rest) = some ['$'] := rfl
  have drop : Frame.opening (.ofMarks ['$']) ('"' :: rest) = (n, inner) := opened
  simp [Frame.step, marks, drop]

end

mutual

theorem passes_string {style : StringStyle} {braces : Nat} {frames : List Frame} {rest : List Char} :
    ∀ {s : List Char}, IsString s → rest.head? ≠ some '"' →
      Passes (.hole style braces :: frames) s (.hole style braces :: frames) rest
  | _, @IsString.regular s quoted, other => by
    refine Passes.cons [.text .plain, .hole style braces] (step_hole_quote ?_)
      (passes_quoted _ quoted)
    rw [List.append_assoc]
    exact opening_closed (quoted.head_ne (by decide)) other
  | _, @IsString.raw quotes body raw, other => by
    obtain ⟨n, rfl⟩ : ∃ n, quotes = n + 1 := ⟨quotes - 1, by have := raw.opened; omega⟩
    refine (Passes.step (List.replicate n '"') [.raw (n + 1), .hole style braces]
      ?_).trans (passes_raw (Nat.succ_pos n) body raw.shorter other)
    rw [List.length_replicate, List.append_assoc]
    exact step_hole_quote (opening_raw .plain raw _)
  | _, @IsString.interpolated s text, other => by
    have opened : Frame.opening .holed ('"' :: (s ++ ['"'] ++ rest)) = (1, .text .holed) := by
      rw [List.append_assoc]
      exact opening_closed text.head_ne other
    exact (Passes.step ['"'] [.text .holed, .hole style braces]
      (step_hole_dollar opened)).trans (passes_interpolated text)

theorem passes_interpolated {frames : List Frame} {rest : List Char} :
    ∀ {s : List Char}, IsInterpolated s →
      Passes (.text .holed :: frames) (s ++ ['"']) frames rest
  | _, .done => Passes.step [] [] rfl
  | _, .escape c text =>
    (Passes.step [c] [.text .holed] rfl).trans (passes_interpolated text)
  | _, .brace text =>
    (Passes.step ['\x7b'] [.text .holed] rfl).trans (passes_interpolated text)
  | _, @IsInterpolated.hole inside s hole starts text => by
    have single : (inside ++ '\x7d' :: (s ++ ['"']) ++ rest).head? ≠ some '\x7b' := by
      cases inside with
      | nil => simp
      | cons c inside => simpa using starts
    have closed : Passes (.hole .holed 0 :: frames) ('\x7d' :: (s ++ ['"'])) frames rest :=
      Passes.cons [.text .holed] rfl (passes_interpolated text)
    rw [List.cons_append, List.append_assoc, List.cons_append]
    exact Passes.cons [.hole .holed 0] (step_opens_hole single)
      ((passes_hole hole (by simp)).trans closed)
  | _, .plain plain text => by
    refine Passes.cons [.text .holed] ?_ (passes_interpolated text)
    simp only [List.mem_cons, List.not_mem_nil, or_false, not_or] at plain
    simp [Frame.step, StringStyle.holed, plain]

theorem passes_hole {style : StringStyle} {braces : Nat} {frames : List Frame} {rest : List Char} :
    ∀ {s : List Char}, IsHole s → rest.head? ≠ some '"' →
      Passes (.hole style braces :: frames) s (.hole style braces :: frames) rest
  | _, .done, _ => .nothing _ _
  | _, .braces inside behind, other =>
    Passes.cons [.hole style (braces + 1)] rfl <|
      (passes_hole inside (by simp)).trans <|
        Passes.cons [.hole style braces] rfl (passes_hole behind other)
  | _, @IsHole.character inside s quoted behind, other => by
    have closed := (passes_character (.hole style braces :: frames) quoted).trans
      (passes_hole behind other)
    rw [List.append_assoc] at closed
    exact Passes.cons [.character, .hole style braces] rfl closed
  | _, .string (s := s) text apart behind, other => by
    refine (passes_string text ?_).trans (passes_hole behind other)
    cases s with
    | nil => exact other
    | cons c s => simpa using apart
  | _, .plain (c := c) plain behind, other => by
    simp only [List.mem_cons, List.not_mem_nil, or_false, not_or] at plain
    have unmarked (t : List Char) : stringMarks (c :: t) = none := by
      simp [stringMarks, StringStyle.isMark, plain]
    refine Passes.cons [.hole style braces] ?_ (passes_hole behind other)
    simp [Frame.step, plain, unmarked]

end

end ConventionLint.Source
