import ConventionLint.Config.Validation
import ConventionLint.Proofs.Source.TypeRoundTrip
import ConventionLint.Proofs.Source.WrittenText

/-!
# Reading identities

A valid identity is cut into its segments and the dots between them, and the reader of types makes
of these the qualifier and the name that the identity is split into elsewhere.
-/
namespace ConventionLint

namespace Text

variable {sep : Char} {s before after : List Char}

theorem splitAtEach_of_cutLast_eq_none (whole : cutLast sep s = none) :
    splitAtEach sep s = [s] := by
  induction s with
  | nil => rfl
  | cons c rest ih =>
    rw [cutLast] at whole
    split at whole
    · cases whole
    · next behind =>
      have other : c ≠ sep := by
        rintro rfl
        simp at whole
      rw [splitAtEach, if_neg other, ih behind]

theorem splitAtEach_of_cutLast (cut : cutLast sep s = some (before, after)) :
    splitAtEach sep s = splitAtEach sep before ++ [after] := by
  induction s generalizing before with
  | nil => cases cut
  | cons c rest ih =>
    rw [cutLast] at cut
    split at cut
    · next inner last behind =>
      obtain ⟨rfl, rfl⟩ := Prod.mk.inj (Option.some.inj cut)
      rw [splitAtEach, splitAtEach, ih behind]
      split
      · rfl
      · obtain ⟨segment, segments, shape⟩ :=
          List.exists_cons_of_ne_nil (splitAtEach_ne_nil sep inner)
        rw [shape]
        rfl
    · next behind =>
      split at cut
      · next same =>
        obtain ⟨rfl, rfl⟩ := Prod.mk.inj (Option.some.inj cut)
        have whole : splitAtEach sep (c :: rest) = [] :: splitAtEach sep rest := if_pos same
        rw [whole, splitAtEach_of_cutLast_eq_none behind]
        rfl
      · cases cut

/-- The two parts of a name have its segments. -/
theorem segments_splitName (name : String) (arguments : List WrittenType) :
    WrittenType.segments ⟨(splitName name).1, (splitName name).2, arguments⟩ = segments name := by
  rw [segments, splitName]
  split
  · next before after cut =>
    simp [WrittenType.segments, segments, splitAtEach_of_cutLast cut]
  · next whole =>
    simp [WrittenType.segments, splitAtEach_of_cutLast_eq_none whole]

end Text

namespace Source

open Lexeme

theorem toNat_lt_of_isAlphanum {c : Char} (plain : c.isAlphanum = true) : c.toNat < 128 := by
  have below {d : Char} (low : d.toNat < 128) (le : c.val ≤ d.val) : c.toNat < 128 :=
    Nat.lt_of_le_of_lt (UInt32.le_iff_toNat_le.1 le) low
  rcases Bool.or_eq_true_iff.1 plain with letter | digit
  · rcases Bool.or_eq_true_iff.1 letter with upper | lower
    · have range : 'A'.val ≤ c.val ∧ c.val ≤ 'Z'.val := of_decide_eq_true upper
      exact below (by decide) range.2
    · have high : c.val ≤ 'z'.val := of_decide_eq_true (Bool.and_eq_true_iff.1 lower).2
      exact below (by decide) high
  · have high : c.val ≤ '9'.val := of_decide_eq_true (Bool.and_eq_true_iff.1 digit).2
    exact below (by decide) high

theorem isIdentifierText_of_isIdentitySegment {segment : List Char}
    (valid : isIdentitySegment segment = true) :
    isIdentifierText (String.ofList segment) = true := by
  have alphabetic {c : Char} (letter : c.isAlpha = true) : Text.isAlphabetic c = true := by
    rw [Text.isAlphabetic_of_isAlpha (toNat_lt_of_isAlphanum (by simp [Char.isAlphanum, letter])),
      letter]
  have numeric {c : Char} (digit : c.isDigit = true) : Text.isNumeric c = true := by
    rw [Text.isNumeric_of_isDigit (toNat_lt_of_isAlphanum (by simp [Char.isAlphanum, digit])), digit]
  rw [isIdentifierText, String.toList_ofList]
  cases segment with
  | nil => cases valid
  | cons c rest =>
    simp only [isIdentitySegment, Bool.and_eq_true, Bool.or_eq_true, decide_eq_true_eq,
      List.all_eq_true] at valid
    simp only [isWordStart, isWordRest, Bool.and_eq_true, Bool.or_eq_true, decide_eq_true_eq,
      List.all_eq_true]
    refine ⟨valid.1.symm.imp_right alphabetic, fun d member => ?_⟩
    rcases valid.2 d member with letter | underscore
    · rw [Char.isAlphanum, Bool.or_eq_true] at letter
      exact letter.imp (fun letter => .inr (alphabetic letter)) numeric
    · exact .inl (.inl underscore)

/-- The piece that a lexeme alone is cut off as. -/
def Lexeme.piece (l : Lexeme) : Piece :=
  ⟨.lexeme l.kind, l.text.toList⟩

theorem pieceAt_dot (lineStart : Bool) (rest : List Char) :
    pieceAt lineStart '.' rest = .ok (.lexeme .punctuation, 0) := by
  rw [pieceAt, stringMarks_eq_none (by decide)]
  rfl

/-- Segments with dots between them are cut off one after another. -/
theorem cutFrom_dotted {names : List (List Char)} (some : names ≠ [])
    (words : ∀ name ∈ names, isIdentifierText (String.ofList name) = true) (passed : Nat)
    (lineStart : Bool) (done : List Piece) :
    cutFrom passed lineStart done (Text.joinWith '.' names) =
      .ok (done.reverse ++ (dotted (names.map String.ofList)).map Lexeme.piece) := by
  induction names generalizing passed lineStart done with
  | nil => exact absurd rfl some
  | cons name names ih =>
    have first := words name (by simp)
    rw [isIdentifierText, String.toList_ofList] at first
    cases name with
    | nil => cases first
    | cons c name =>
      obtain ⟨start, more⟩ := Bool.and_eq_true_iff.1 first
      cases names with
      | nil =>
        have found : pieceAt lineStart c (name ++ []) = .ok (.lexeme .identifier, name.length) :=
          pieceAt_word start more rfl
        rw [List.append_nil] at found
        rw [Text.joinWith, cutFrom_cons found]
        simp [cutFrom, dotted, word, Lexeme.piece]
      | cons next names =>
        have found : pieceAt lineStart c (name ++ '.' :: Text.joinWith '.' (next :: names)) =
            .ok (.lexeme .identifier, name.length) := pieceAt_word start more rfl
        rw [Text.joinWith, List.cons_append, cutFrom_cons found, List.take_left, List.drop_left,
          cutFrom_cons (pieceAt_dot _ _), List.take_zero, List.drop_zero, ih (by simp)
            fun name member => words name (List.mem_cons_of_mem _ member)]
        simp [dotted, word, mark, Lexeme.piece]

theorem withoutMark_dotted {names : List (List Char)}
    (words : ∀ name ∈ names, isIdentifierText (String.ofList name) = true) :
    withoutMark (Text.joinWith '.' names) = Text.joinWith '.' names := by
  cases names with
  | nil => rfl
  | cons name names =>
    have first := words name (by simp)
    rw [isIdentifierText, String.toList_ofList] at first
    cases name with
    | nil => cases first
    | cons c name =>
      have start := (Bool.and_eq_true_iff.1 first).1
      cases names with
      | nil => exact withoutMark_word start name
      | cons next names => exact withoutMark_word start _

theorem locate_plain {lexemes : List Lexeme} (plain : ∀ l ∈ lexemes, l.isPlain = true)
    (done : List Token) (p : Position) :
    (locate done p (lexemes.map Lexeme.piece)).map Token.lexeme =
      done.reverse.map Token.lexeme ++ lexemes := by
  induction lexemes generalizing done p with
  | nil => simp [locate]
  | cons l lexemes ih =>
    rw [List.map_cons, Lexeme.piece, locate_lexeme (plain l (by simp)),
      ih fun other member => plain other (List.mem_cons_of_mem _ member)]
    simp [Token.lexeme]

/-- The text of an identity spells its segments with dots between them. -/
theorem tokens_identity {name : String} (valid : isIdentity name = true) :
    ∃ ts, tokens name = .ok ts ∧ Spells (dotted (Text.segments name)) ts [] := by
  have words : ∀ segment ∈ Text.splitAtEach '.' name.toList,
      isIdentifierText (String.ofList segment) = true := fun segment member =>
    isIdentifierText_of_isIdentitySegment (List.all_eq_true.1 valid segment member)
  have plain : ∀ l ∈ dotted (Text.segments name), l.isPlain = true := by
    refine List.all_eq_true.1 (isPlain_dotted_of_words fun segment member => ?_)
    obtain ⟨text, inside, rfl⟩ := List.mem_map.1 member
    exact words text inside
  have unmarked : withoutMark name.toList = name.toList := by
    rw [← Text.joinWith_splitAtEach '.' name.toList]
    exact withoutMark_dotted words
  have cut : pieces name.toList = .ok ((dotted (Text.segments name)).map Lexeme.piece) := by
    rw [← Text.joinWith_splitAtEach '.' name.toList, pieces,
      cutFrom_dotted (Text.splitAtEach_ne_nil _ _) words]
    rfl
  refine ⟨_, ?_, _, (List.append_nil _).symm, locate_plain plain [] .start⟩
  rw [tokens, unmarked, cut]

/-- How type arguments are written behind a name. -/
def argumentLexemes : List WrittenType → List Lexeme
  | [] => []
  | first :: more =>
    mark "<" :: (first.lexemes ++ (WrittenType.lexemesBehind more ++ [mark ">"]))

/-- Somewhere a type is read where a name is written with arguments and nothing goes on with it. -/
def IsReadAs (name : String) (arguments : List WrittenType) (type : WrittenType) : Prop :=
  ∃ depth ts rest, depth ≤ maxNesting ∧
    Spells (dotted (Text.segments name) ++ argumentLexemes arguments) ts rest ∧
    endsType rest = true ∧ typeOf depth ts = .ok (some type, rest)

theorem lexemes_splitName (name : String) (arguments : List WrittenType) :
    WrittenType.lexemes ⟨(Text.splitName name).1, (Text.splitName name).2, arguments⟩ =
      dotted (Text.segments name) ++ argumentLexemes arguments := by
  cases arguments with
  | nil => rw [WrittenType.lexemes, Text.segments_splitName, argumentLexemes, List.append_nil]
  | cons first more => rw [WrittenType.lexemes, Text.segments_splitName, argumentLexemes]

/-- A type is never read as another than the one that the two parts of its name make. -/
theorem IsReadAs.eq_splitName {name : String} {arguments : List WrittenType} {type : WrittenType}
    (read : IsReadAs name arguments type) :
    type = ⟨(Text.splitName name).1, (Text.splitName name).2, arguments⟩ := by
  obtain ⟨depth, ts, rest, shallow, spelled, ended, found⟩ := read
  rw [← lexemes_splitName] at spelled
  have outcome := typeOf_spelled shallow spelled ended
  by_cases within : depth + WrittenType.nesting
      ⟨(Text.splitName name).1, (Text.splitName name).2, arguments⟩ ≤ maxNesting
  · obtain ⟨result, run, rfl⟩ := outcome.within within
    exact Option.some.inj (Prod.mk.inj (Except.ok.inj (found.symm.trans run))).1
  · obtain ⟨fault, run, -⟩ := outcome.beyond (Nat.lt_of_not_le within)
    cases found.symm.trans run

/-- The text of an identity is read as its two parts. -/
theorem typeOf_identity {name : String} (valid : isIdentity name = true) :
    ∃ ts, tokens name = .ok ts ∧ Spells (dotted (Text.segments name)) ts [] ∧
      typeOf 0 ts = .ok (some ⟨(Text.splitName name).1, (Text.splitName name).2, []⟩, []) := by
  obtain ⟨ts, lexed, spelled⟩ := tokens_identity valid
  have whole := (lexemes_splitName name []).trans (List.append_nil _)
  obtain ⟨result, run, rfl⟩ := (typeOf_spelled (Nat.zero_le _) (whole ▸ spelled) rfl).within
    (by simp [WrittenType.nesting])
  exact ⟨ts, lexed, spelled, run⟩

theorem isReadAs_identity {name : String} (valid : isIdentity name = true) :
    IsReadAs name [] ⟨(Text.splitName name).1, (Text.splitName name).2, []⟩ := by
  obtain ⟨ts, -, spelled, run⟩ := typeOf_identity valid
  refine ⟨0, ts, [], Nat.zero_le _, ?_, rfl, run⟩
  rwa [argumentLexemes, List.append_nil]

end Source

end ConventionLint
