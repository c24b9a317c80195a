import ConventionLint.Proofs.Source.LexicalGrammar
import ConventionLint.Proofs.Source.Places
import Mathlib.Data.List.TakeWhile

/-!
# Positions

Where tokens stand in their text. The pieces of a text cover it without gaps; a token covers its
piece, starts at the line and column that the text before it gives, and only white space, comments
and directive lines are covered by no token. The names of a scanned file are tokens of its text, so
the text reads each of them where it is said to stand.
-/
namespace ConventionLint.Source

/-- What stands behind the last newline of a text, the last character first. -/
def lastLine (before : List Char) : List Char :=
  before.reverse.takeWhile (· ≠ '\n')

/-- Whether a place is where a text goes on behind `before`. -/
structure IsBehind (before : List Char) (p : Position) : Prop where
  line : p.line = 1 + before.count '\n'
  column : p.column = 1 + (lastLine before).length

theorem lastLine_newline (before : List Char) : lastLine (before ++ ['\n']) = [] := by
  simp [lastLine]

theorem lastLine_other {c : Char} (other : c ≠ '\n') (before : List Char) :
    lastLine (before ++ [c]) = c :: lastLine before := by
  simp [lastLine, other]

theorem IsBehind.advance {before : List Char} {p : Position} (behind : IsBehind before p)
    (c : Char) : IsBehind (before ++ [c]) (p.advance c) := by
  rw [Position.advance]
  split
  · next newline =>
    subst newline
    refine ⟨?_, by rw [lastLine_newline]; rfl⟩
    rw [behind.line, List.count_append, List.count_singleton_self, Nat.add_assoc]
  · next other =>
    refine ⟨?_, ?_⟩
    · rw [behind.line, List.count_append, List.count_singleton, if_neg (by simpa using other),
        Nat.add_zero]
    · rw [behind.column, lastLine_other other, List.length_cons, Nat.add_assoc]

theorem IsBehind.after {before : List Char} {p : Position} (behind : IsBehind before p)
    (text : List Char) : IsBehind (before ++ text) (p.after text) := by
  induction text generalizing before p with
  | nil => simpa using behind
  | cons c text ih => simpa using ih (behind.advance c)

/-- Whether a text goes on with a newline, if it goes on. -/
def EndsLine (rest : List Char) : Prop :=
  ∀ c ∈ rest.head?, c = '\n'

/-- Whether a text has only white space on its last line. -/
def StartsLine (before : List Char) : Prop :=
  ∀ c ∈ lastLine before, Text.isBlank c = true

/-- What a text other than a lexeme is, between `before` and `rest`. -/
inductive IsSkipped (before text rest : List Char) : Prop where
  | blank {c : Char} : text = [c] → Text.isBlank c = true → IsSkipped before text rest
  | blockComment : IsBlockComment text → IsSkipped before text rest
  | lineComment : IsLineComment text → EndsLine rest → IsSkipped before text rest
  | directive : StartsLine before → IsDirective text → EndsLine rest → IsSkipped before text rest

/-- Whether a piece is what its kind promises, between `before` and `rest`. -/
def Piece.Fits (before : List Char) (piece : Piece) (rest : List Char) : Prop :=
  match piece.kind with
  | .lexeme _ => piece.text ≠ []
  | _ => IsSkipped before piece.text rest

theorem Piece.Fits.cases {before rest : List Char} {piece : Piece}
    (fits : piece.Fits before rest) : (∃ kind, piece.kind = .lexeme kind ∧ piece.text ≠ []) ∨
      piece.IsFiller ∧ IsSkipped before piece.text rest := by
  obtain ⟨kind, text⟩ := piece
  cases kind with
  | lexeme kind => exact .inl ⟨kind, rfl, fits⟩
  | _ => exact .inr ⟨fun kind shape => (by cases shape), fits⟩

/-- Pieces that fit behind `before`, one after another. -/
inductive Fit : (before : List Char) → List Piece → Prop where
  | done (before : List Char) : Fit before []
  | cons {before : List Char} {piece : Piece} {found : List Piece} :
      piece.Fits before (found.flatMap (·.text)) → Fit (before ++ piece.text) found →
      Fit before (piece :: found)

section

variable {rest : List Char}

theorem exists_line (rest : List Char) : ∃ line behind, rest = line ++ behind ∧
    lineLength rest = line.length ∧ '\n' ∉ line ∧ EndsLine behind := by
  refine ⟨rest.takeWhile (· ≠ '\n'), rest.dropWhile (· ≠ '\n'),
    List.takeWhile_append_dropWhile.symm, rfl, fun member => ?_, fun c first => ?_⟩
  · simpa using List.mem_takeWhile_imp member
  · have stopped := List.head?_dropWhile_not (· ≠ '\n') rest
    rw [Option.mem_def.1 first] at stopped
    simpa using stopped

theorem exists_comment {passed n : Nat} (found : commentLength passed rest = some n) :
    ∃ body behind, rest = body ++ '*' :: '/' :: behind ∧ ¬ ['*', '/'] <:+: body ∧
      n = passed + (body.length + 2) := by
  fun_induction commentLength passed rest with
  | case1 => cases found
  | case2 passed behind =>
    obtain rfl := Option.some.inj found
    exact ⟨[], behind, rfl, by simp, rfl⟩
  | case3 passed c rest other ih =>
    obtain ⟨body, behind, rfl, open_, rfl⟩ := ih found
    refine ⟨c :: body, behind, rfl, fun closed => ?_, by rw [List.length_cons]; omega⟩
    rcases List.infix_cons_iff.1 closed with first | later
    · obtain ⟨rfl, inside⟩ := List.cons_prefix_cons.1 first
      cases body with
      | nil => simp at inside
      | cons d body =>
        obtain ⟨rfl, -⟩ := List.cons_prefix_cons.1 inside
        exact other _ rfl rfl
    · exact open_ later

end

/-- Whether the text from `rest` on may be cut as at the start of a line. -/
def MayStartLine (before rest : List Char) : Prop :=
  StartsLine before ∨ EndsLine rest

section

variable {lineStart : Bool} {c : Char} {rest before : List Char} {kind : PieceKind} {n : Nat}

theorem MayStartLine.startsLine (starts : MayStartLine before (c :: rest)) (other : c ≠ '\n') :
    StartsLine before :=
  starts.resolve_right fun ended => other (ended c rfl)

theorem startsLine_newline (before : List Char) : StartsLine (before ++ ['\n']) := by
  rw [StartsLine, lastLine_newline]
  exact List.forall_mem_nil _

theorem StartsLine.blank (starts : StartsLine before) (blank : Text.isBlank c = true)
    (other : c ≠ '\n') : StartsLine (before ++ [c]) := by
  rw [StartsLine, lastLine_other other]
  exact List.forall_mem_cons.2 ⟨blank, starts⟩

/-- What is no white space, comment or directive line is cut off as a lexeme. -/
theorem exists_kind_of_pieceAt (blank : Text.isBlank c = false)
    (directive : ¬ (c = '#' ∧ lineStart = true)) (line : ¬ (c = '/' ∧ rest.head? = some '/'))
    (block : ¬ (c = '/' ∧ rest.head? = some '*'))
    (found : pieceAt lineStart c rest = .ok (kind, n)) : ∃ lexeme, kind = .lexeme lexeme := by
  have newline : c ≠ '\n' := by
    rintro rfl
    exact absurd blank (by decide)
  have literal {marks : List Char} (read : (stringLength marks (c :: rest)).map
      (fun n => (PieceKind.lexeme .literal, n - 1)) = .ok (kind, n)) :
      ∃ lexeme, kind = .lexeme lexeme := by
    cases length : stringLength marks (c :: rest) with
    | error fault =>
      rw [length] at read
      cases read
    | ok m =>
      rw [length] at read
      exact ⟨_, (congrArg Prod.fst (Except.ok.inj read)).symm⟩
  rw [pieceAt, if_neg newline, if_neg (by simp [blank]), if_neg (by simpa using directive),
    if_neg (by simpa using line), if_neg (by simpa using block)] at found
  split at found
  · exact literal found
  · split at found
    · exact literal found
    · repeat' split at found
      all_goals exact ⟨_, (congrArg Prod.fst (Except.ok.inj found)).symm⟩

theorem pieceAt_block (lineStart : Bool) (more : List Char) :
    pieceAt lineStart '/' ('*' :: more) =
      match commentLength 0 more with
      | some n => .ok (.comment, n + 1)
      | none => .error (.unterminatedComment, more.length + 1 + 1) := rfl

/-- A piece that is cut off fits behind any text that the line start was told about. -/
theorem fits_of_pieceAt (starts : lineStart = true → MayStartLine before (c :: rest))
    (found : pieceAt lineStart c rest = .ok (kind, n)) :
    (Piece.mk kind (c :: rest.take n)).Fits before (rest.drop n) ∧
      (kind.keepsLineStart lineStart = true →
        MayStartLine (before ++ c :: rest.take n) (rest.drop n)) := by
  by_cases newline : c = '\n'
  · subst newline
    obtain ⟨rfl, rfl⟩ := Prod.mk.inj (Except.ok.inj found)
    exact ⟨.blank rfl (by decide), fun _ => .inl (startsLine_newline before)⟩
  by_cases blank : Text.isBlank c = true
  · rw [pieceAt, if_neg newline, if_pos blank] at found
    obtain ⟨rfl, rfl⟩ := Prod.mk.inj (Except.ok.inj found)
    exact ⟨.blank rfl blank, fun kept =>
      .inl (((starts kept).startsLine newline).blank blank newline)⟩
  by_cases directive : c = '#' ∧ lineStart = true
  · obtain ⟨rfl, rfl⟩ := directive
    obtain ⟨rfl, rfl⟩ := Prod.mk.inj (Except.ok.inj found)
    obtain ⟨line, behind, rfl, length, inside, ended⟩ := exists_line rest
    rw [length, List.take_left, List.drop_left]
    exact ⟨.directive ((starts rfl).startsLine newline) ⟨line, rfl, inside⟩ ended,
      fun _ => .inr ended⟩
  by_cases line : c = '/' ∧ rest.head? = some '/'
  · obtain ⟨rfl, head⟩ := line
    obtain ⟨line, behind, rfl, length, inside, ended⟩ := exists_line rest
    obtain ⟨body, rfl⟩ : ∃ body, line = '/' :: body := by
      cases line with
      | nil => exact absurd (ended '/' head) (by decide)
      | cons d body => exact ⟨body, by rw [Option.some.inj head]⟩
    obtain ⟨rfl, rfl⟩ := Prod.mk.inj (Except.ok.inj found)
    have outside : '\n' ∉ body := fun member => inside (List.mem_cons_of_mem _ member)
    rw [length, List.take_left, List.drop_left]
    exact ⟨.lineComment ⟨body, rfl, outside⟩ ended, fun kept => by cases kept⟩
  by_cases block : c = '/' ∧ rest.head? = some '*'
  · obtain ⟨rfl, head⟩ := block
    obtain ⟨more, rfl⟩ := List.head?_eq_some_iff.1 head
    rw [pieceAt_block] at found
    cases length : commentLength 0 more with
    | none =>
      rw [length] at found
      cases found
    | some m =>
      obtain ⟨body, behind, rfl, open_, rfl⟩ := exists_comment length
      rw [length] at found
      obtain ⟨rfl, rfl⟩ := Prod.mk.inj (Except.ok.inj found)
      have shape : '*' :: (body ++ '*' :: '/' :: behind)
          = '*' :: (body ++ ['*', '/']) ++ behind := by simp
      have size : 0 + (body.length + 2) + 1 = ('*' :: (body ++ ['*', '/'])).length := by simp
      rw [shape, size, List.take_left, List.drop_left]
      exact ⟨.blockComment ⟨body, rfl, open_⟩, fun kept => by cases kept⟩
  obtain ⟨lexeme, rfl⟩ :=
    exists_kind_of_pieceAt (eq_false_of_ne_true blank) directive line block found
  exact ⟨List.cons_ne_nil _ _, fun kept => by cases kept⟩

end

theorem fit_of_cutFrom {passed : Nat} {lineStart : Bool} {done found : List Piece}
    {s before : List Char} (starts : lineStart = true → MayStartLine before s)
    (run : cutFrom passed lineStart done s = .ok found) :
    ∃ pieces, found = done.reverse ++ pieces ∧ Fit before pieces ∧ pieces.flatMap (·.text) = s := by
  fun_induction cutFrom passed lineStart done s generalizing before with
  | case1 passed lineStart done =>
    obtain rfl := Except.ok.inj run
    exact ⟨[], by simp, .done before, rfl⟩
  | case2 => cases run
  | case3 passed lineStart done c rest kind n cut ih =>
    obtain ⟨fits, kept⟩ := fits_of_pieceAt starts cut
    obtain ⟨pieces, rfl, fit, whole⟩ := ih kept run
    refine ⟨⟨kind, c :: rest.take n⟩ :: pieces, by simp, .cons (whole ▸ fits) fit, ?_⟩
    rw [List.flatMap_cons, whole, List.cons_append, List.take_append_drop]

/-- A stretch of a text: the characters from `start` on, up to the one at `stop`. -/
structure Span where
  start : Nat
  stop : Nat

namespace Span

def of (text : List Char) (s : Span) : List Char :=
  text.extract s.start s.stop

def Holds (s : Span) (i : Nat) : Prop :=
  s.start ≤ i ∧ i < s.stop

/-- Whether a stretch ends where the other starts, or before. -/
def Before (s t : Span) : Prop :=
  s.stop ≤ t.start

end Span

/-- Whether a token is what the text reads in a span, and stands where the span starts. -/
structure Token.Stands (text : List Char) (t : Token) (s : Span) : Prop where
  filled : s.start < s.stop
  within : s.stop ≤ text.length
  reads : s.of text = t.text.toList ∨ t.kind = .identifier ∧ s.of text = '@' :: t.text.toList
  place : IsBehind (text.take s.start) t.position

/-- Spans of the tokens of a text, and of what is skipped between them, from `start` on. -/
structure Covering (text : List Char) (start : Nat) (ts : List Token) (spans skipped : List Span) :
    Prop where
  later : ∀ s ∈ spans ++ skipped, start ≤ s.start
  tokens : List.Forall₂ (Token.Stands text) ts spans
  ordered : spans.Pairwise Span.Before
  skips : ∀ s ∈ skipped, IsSkipped (text.take s.start) (s.of text) (text.drop s.stop)
  apart : ∀ s ∈ skipped, ∀ t ∈ spans, s.Before t ∨ t.Before s
  covers : ∀ i, start ≤ i → i < text.length → ∃ s ∈ spans ++ skipped, s.Holds i

namespace Covering

variable {text : List Char} {start stop : Nat} {ts : List Token} {spans skipped : List Span}

theorem nothing (text : List Char) : Covering text text.length [] [] [] where
  later := by simp
  tokens := .nil
  ordered := .nil
  skips := by simp
  apart := by simp
  covers := fun i later within => absurd within (Nat.not_lt.2 later)

theorem later_spans (covering : Covering text stop ts spans skipped) :
    ∀ s ∈ spans, stop ≤ s.start :=
  fun s member => covering.later s (List.mem_append_left _ member)

theorem later_skipped (covering : Covering text stop ts spans skipped) :
    ∀ s ∈ skipped, stop ≤ s.start :=
  fun s member => covering.later s (List.mem_append_right _ member)

/-- What a span holds is covered by it, and the rest as before. -/
theorem covers_of_first {others : List Span} (covering : Covering text stop ts spans skipped)
    (same : ∀ s, s ∈ others ↔ s = ⟨start, stop⟩ ∨ s ∈ spans ++ skipped) (i : Nat)
    (later : start ≤ i) (within : i < text.length) : ∃ s ∈ others, s.Holds i := by
  by_cases first : i < stop
  · exact ⟨⟨start, stop⟩, (same _).2 (.inl rfl), later, first⟩
  · obtain ⟨s, member, holds⟩ := covering.covers i (Nat.le_of_not_lt first) within
    exact ⟨s, (same s).2 (.inr member), holds⟩

theorem token {t : Token} (covering : Covering text stop ts spans skipped)
    (stands : t.Stands text ⟨start, stop⟩) :
    Covering text start (t :: ts) (⟨start, stop⟩ :: spans) skipped where
  later := by
    refine List.forall_mem_cons.2 ⟨Nat.le_refl _, fun s member => ?_⟩
    exact Nat.le_trans (Nat.le_of_lt stands.filled) (covering.later s member)
  tokens := .cons stands covering.tokens
  ordered := List.pairwise_cons.2 ⟨covering.later_spans, covering.ordered⟩
  skips := covering.skips
  apart := fun s member => List.forall_mem_cons.2
    ⟨.inr (covering.later_skipped s member), covering.apart s member⟩
  covers := covering.covers_of_first fun s => by simp

theorem skip (covering : Covering text stop ts spans skipped) (before : start ≤ stop)
    (skips : IsSkipped (text.take start) (Span.of text ⟨start, stop⟩) (text.drop stop)) :
    Covering text start ts spans (⟨start, stop⟩ :: skipped) where
  later := by
    intro s member
    rw [List.mem_append, List.mem_cons] at member
    rcases member with inside | rfl | behind
    · exact Nat.le_trans before (covering.later_spans s inside)
    · exact Nat.le_refl _
    · exact Nat.le_trans before (covering.later_skipped s behind)
  tokens := covering.tokens
  ordered := covering.ordered
  skips := List.forall_mem_cons.2 ⟨skips, covering.skips⟩
  apart := List.forall_mem_cons.2
    ⟨fun t member => .inl (covering.later_spans t member), covering.apart⟩
  covers := covering.covers_of_first fun s => by simp [or_left_comm]

end Covering

/-- The name of a lexeme is its text, but for the mark in front of an identifier. -/
theorem lexemeText_cases (piece : Piece) (kind : LexemeKind) :
    piece.text = (piece.lexemeText kind).toList ∨
      kind = .identifier ∧ piece.text = '@' :: (piece.lexemeText kind).toList := by
  unfold Piece.lexemeText
  split
  · next name marked => exact .inr ⟨rfl, by rw [marked, String.toList_ofList]⟩
  · exact .inl String.toList_ofList.symm

/-- Pieces that fit cover the text they make. -/
theorem Fit.covering {before : List Char} {found : List Piece} (fit : Fit before found)
    {p : Position} (behind : IsBehind before p) :
    ∃ spans skipped, Covering (before ++ found.flatMap (·.text)) before.length (locate [] p found)
      spans skipped := by
  induction fit generalizing p with
  | done before =>
    refine ⟨[], [], ?_⟩
    simpa [locate] using Covering.nothing before
  | @cons before piece found fits _ ih =>
    obtain ⟨spans, skipped, covering⟩ := ih (behind.after piece.text)
    rw [List.length_append] at covering
    have start : (before ++ piece.text ++ found.flatMap (·.text)).take before.length = before := by
      rw [List.append_assoc, List.take_left]
    have inside : Span.of (before ++ piece.text ++ found.flatMap (·.text))
        ⟨before.length, before.length + piece.text.length⟩ = piece.text := by
      simp [Span.of]
    have rest : (before ++ piece.text ++ found.flatMap (·.text)).drop
        (before.length + piece.text.length) = found.flatMap (·.text) := by
      rw [← List.length_append, List.drop_left]
    rw [List.flatMap_cons, ← List.append_assoc]
    rcases fits.cases with ⟨kind, shape, filled⟩ | ⟨filler, skips⟩
    · rw [locate_cons_lexeme shape]
      refine ⟨_, skipped, covering.token ⟨?_, ?_, ?_, ?_⟩⟩
      · exact Nat.lt_add_of_pos_right (List.length_pos_iff.2 filled)
      · simp
      · rw [inside]
        exact lexemeText_cases piece kind
      · rw [start]
        exact behind
    · rw [locate_cons_filler filler]
      refine ⟨spans, _, covering.skip (Nat.le_add_right _ _) ?_⟩
      rw [start, inside, rest]
      exact skips

/-- The tokens of a text stand where the text reads them, and only white space, comments and
directive lines stand elsewhere. -/
theorem covering_of_tokens {source : String} {ts : List Token} (lexed : tokens source = .ok ts) :
    ∃ spans skipped, Covering (withoutMark source.toList) 0 ts spans skipped := by
  rw [tokens] at lexed
  dsimp only at lexed
  split at lexed
  · next found cut =>
    obtain rfl := Except.ok.inj lexed
    have starts : MayStartLine [] (withoutMark source.toList) :=
      .inl (by simp [StartsLine, lastLine])
    obtain ⟨pieces, rfl, fit, whole⟩ := fit_of_cutFrom (fun _ => starts) cut
    rw [← whole]
    exact fit.covering ⟨rfl, rfl⟩
  · cases lexed

/-- Whether a text reads a name at a place, a mark in front of it apart. -/
def ReadsAt (text : List Char) (name : String) (p : Position) : Prop :=
  ∃ before rest, IsBehind before p ∧
    (text = before ++ (name.toList ++ rest) ∨ text = before ++ '@' :: (name.toList ++ rest))

theorem Token.Stands.readsAt {text : List Char} {t : Token} {s : Span} (stands : t.Stands text s) :
    ReadsAt text t.text t.position := by
  have whole : text = text.take s.start ++ (s.of text ++ text.drop s.stop) := by
    have behind : text.drop s.stop = (text.drop s.start).drop (s.stop - s.start) := by
      rw [List.drop_drop, Nat.add_sub_of_le (Nat.le_of_lt stands.filled)]
    rw [Span.of, List.extract_eq_take_drop, behind, List.take_append_drop, List.take_append_drop]
  refine ⟨text.take s.start, text.drop s.stop, stands.place, ?_⟩
  rcases stands.reads with plain | ⟨-, marked⟩
  · exact .inl (plain ▸ whole)
  · exact .inr (by rwa [marked, List.cons_append] at whole)

theorem Covering.readsAt {text : List Char} {start : Nat} {ts : List Token}
    {spans skipped : List Span} (covering : Covering text start ts spans skipped) {t : Token}
    (member : t ∈ ts) :
    ReadsAt text t.text t.position := by
  obtain ⟨i, within, rfl⟩ := List.getElem_of_mem member
  have same := covering.tokens.length_eq
  exact (covering.tokens.get within (same ▸ within)).readsAt

end Source

/-- What a scanned file declares stands where its text reads the names. -/
theorem SourceFile.positions_of_scan {path : Path} {source : String} {f : SourceFile}
    (scanned : SourceFile.scan path source = .ok f) :
    ∃ ts spans skipped, Source.tokens source = .ok ts ∧
      Source.Covering (Source.withoutMark source.toList) 0 ts spans skipped ∧
      (∀ name ∈ f.nameTokens, name ∈ ts ∧
        Source.ReadsAt (Source.withoutMark source.toList) name.text name.position) ∧
      f.places.Nodup := by
  obtain ⟨ts, lexed, named⟩ := f.nameTokens_subperm scanned
  obtain ⟨spans, skipped, covering⟩ := Source.covering_of_tokens lexed
  exact ⟨ts, spans, skipped, lexed, covering, fun name member =>
    ⟨named.subset member, covering.readsAt (named.subset member)⟩, SourceFile.places_nodup scanned⟩

/-- A text with a mark in front, a comment, a directive line and names on several lines. -/
def markedText : String :=
  "\ufeff// one\n #if A\npublic class @Order<T> \x7b /*\n*/ int left, right;\n\x7d"

theorem SourceFile.positions_of_scan_markedText :
    ∃ f ts spans skipped, SourceFile.scan ⟨"a.cs"⟩ markedText = .ok f ∧
      f.nameTokens = [⟨.identifier, "Order", ⟨3, 14⟩⟩, ⟨.identifier, "left", ⟨4, 8⟩⟩,
        ⟨.identifier, "right", ⟨4, 14⟩⟩] ∧
      Source.tokens markedText = .ok ts ∧
      Source.Covering (Source.withoutMark markedText.toList) 0 ts spans skipped ∧
      (∀ name ∈ f.nameTokens, name ∈ ts ∧
        Source.ReadsAt (Source.withoutMark markedText.toList) name.text name.position) ∧
      f.places.Nodup := by
  have named : (SourceFile.scan ⟨"a.cs"⟩ markedText).toOption.map (·.nameTokens)
      = some [⟨.identifier, "Order", ⟨3, 14⟩⟩, ⟨.identifier, "left", ⟨4, 8⟩⟩,
        ⟨.identifier, "right", ⟨4, 14⟩⟩] := by decide +kernel
  cases scanned : SourceFile.scan ⟨"a.cs"⟩ markedText with
  | error fault =>
    rw [scanned] at named
    cases named
  | ok f =>
    rw [scanned] at named
    obtain ⟨ts, spans, skipped, faithful⟩ := SourceFile.positions_of_scan scanned
    exact ⟨f, ts, spans, skipped, rfl, Option.some.inj named, faithful⟩

end ConventionLint
