import ConventionLint.Proofs.Source.Brackets
import ConventionLint.Proofs.Source.Leftover
import ConventionLint.Proofs.Source.MemberRoundTrip

/-!
# Members behind their types

Most members start with a type and a name. Where the type is read and the name is behind it, the
member is the one that the tokens behind the name tell: nothing that is skipped as a whole starts
like this.
-/
namespace ConventionLint.Source

section

variable {owner : Owner} {modifiers : List String} {depth : Nat} {type : WrittenType} {t o : Token}
  {ts more left : List Token}

/-- A type starts with a word, or with a parenthesis if it is a tuple. -/
theorem startsWith_of_typeOf (typed : typeOf depth ts = .ok (some type, left)) :
    startsWithIdentifier ts = true ∨ startsWith "(" ts = true := by
  rw [typeOf_eq] at typed
  split at typed
  next tuple => exact .inr tuple
  next =>
    by_cases global : startsWithWord "global" ts = true
    · cases ts with
      | nil => cases global
      | cons t ts =>
        simp only [startsWithWord_cons, Token.isWord, Bool.and_eq_true] at global
        exact .inl global.1
    · have kept : skipGlobal ts = ts := by
        rw [skipGlobal, if_neg (by simp [global])]
      rw [kept] at typed
      cases ts with
      | nil => simp at typed
      | cons t ts =>
        by_cases word : t.isIdentifier = true
        · exact .inl word
        · simp [word] at typed

theorem startsWith_eq_false_of_typeOf (typed : typeOf depth ts = .ok (some type, left))
    {text : String} (other : "(" ≠ text) : startsWith text ts = false := by
  cases ts with
  | nil => rfl
  | cons t ts =>
    rcases startsWith_of_typeOf typed with word | tuple
    · exact Token.isPunctuation_of_isIdentifier word text
    · exact Token.isPunctuation_eq_false tuple other

/-- A type does not reach into the parentheses behind its first word. -/
theorem typeOf_word_parenthesis (word : t.isIdentifier = true)
    (opening : o.isPunctuation "(" = true)
    (typed : typeOf depth (t :: o :: more) = .ok (some type, left)) : left = o :: more := by
  have other {text : String} (different : "(" ≠ text) : o.isPunctuation text = false :=
    Token.isPunctuation_eq_false opening different
  have kept : skipGlobal (t :: o :: more) = t :: o :: more := by
    rw [skipGlobal, if_neg (by simp [other])]
  have bare : skipSuffixes (o :: more) = o :: more := by
    rw [skipSuffixes]
    simp [other]
  have segments : segmentsOf depth [t.text] [] (o :: more) =
      .ok (writtenType [t.text] [], o :: more) := by
    rw [segmentsOf_eq, argumentListOf, if_neg (by simp [other])]
    cases more with
    | nil => simp [bind, Except.bind, bare]
    | cons next more => simp [bind, Except.bind, bare, other]
  rw [typeOf_eq, if_neg (by simp [Token.isPunctuation_of_isIdentifier word]), kept] at typed
  simp only [word, ↓reduceIte, segments] at typed
  exact (Prod.mk.inj (Except.ok.inj typed)).2.symm

/-- Where a type is read and a name is behind it, no member starts that is skipped as a whole. A
constructor has no type: its name is followed by its parameters. -/
theorem startsUnlisted_eq_false (typed : typeOf depth ts = .ok (some type, left))
    (listed : startsWithWord "event" ts = false ∧ startsWithWord "operator" ts = false)
    (named : startsWithIdentifier left = true) : startsUnlisted owner ts = false := by
  have unmarked : startsWith "~" ts = false := startsWith_eq_false_of_typeOf typed (by decide)
  have constructs : (startsWithWord owner.name ts && startsWith "(" ts.tail) = false := by
    rw [Bool.eq_false_iff]
    intro both
    rw [Bool.and_eq_true] at both
    obtain ⟨own, opening⟩ := both
    rcases ts with _ | ⟨t, _ | ⟨o, more⟩⟩
    · cases own
    · cases opening
    · have word : t.isIdentifier = true := by
        simp only [startsWithWord_cons, Token.isWord, Bool.and_eq_true] at own
        exact own.1
      have opening : o.isPunctuation "(" = true := opening
      obtain rfl := typeOf_word_parenthesis word opening typed
      rw [Token.isPunctuation_of_isIdentifier named] at opening
      cases opening
  rw [startsUnlisted, unmarked, listed.1, listed.2, constructs]
  rfl

end

/-- The type and the name that a member starts with. The type is none of the words that start
members without types. -/
structure MemberHead where
  type : List Token
  name : Token
  listed : startsWithWord "event" type = false ∧ startsWithWord "operator" type = false
  named : name.isIdentifier = true ∧ name.isWord "operator" = false ∧ name.isWord "this" = false

namespace MemberHead

variable {head : MemberHead} {owner : Owner} {modifiers : List String} {depth : Nat}
  {behind : List Token}

def tokens (head : MemberHead) (behind : List Token) : List Token :=
  head.type ++ head.name :: behind

/-- The type is read as one, up to the name. -/
def IsTyped (head : MemberHead) (depth : Nat) (behind : List Token) : Prop :=
  ∃ type, typeOf depth (head.tokens behind) = .ok (some type, head.name :: behind)

def declaration (head : MemberHead) (owner : Owner) (modifiers : List String)
    (kind : MemberDeclarationKind) : MemberDeclaration :=
  ⟨head.name.text, kind, (Accessibility.ofModifiers modifiers).getD owner.defaultAccessibility,
    head.name.position⟩

theorem exists_tokens_eq_cons (typed : head.IsTyped depth behind) :
    ∃ t ts, head.type = t :: ts ∧ head.tokens behind = t :: (ts ++ head.name :: behind) := by
  obtain ⟨type, typed⟩ := typed
  have taken := typeOf_shorter typed
  rw [tokens, List.length_append] at taken
  obtain ⟨t, ts, shape⟩ := List.exists_cons_of_length_pos (l := head.type) (by omega)
  exact ⟨t, ts, shape, by rw [tokens, shape, List.cons_append]⟩

theorem readMember_eq (typed : head.IsTyped depth behind)
    (plain : startsWithMark ["<", "."] behind = false) :
    readMember owner depth modifiers (head.tokens behind) =
      .ok (readNamedMember owner modifiers head.name false behind) := by
  obtain ⟨t, ts, shape, tokens_eq⟩ := exists_tokens_eq_cons typed
  obtain ⟨type, typed⟩ := typed
  obtain ⟨word, operator, this⟩ := head.named
  have listed : startsWithWord "event" (head.tokens behind) = false ∧
      startsWithWord "operator" (head.tokens behind) = false := by
    simpa [tokens_eq, shape] using head.listed
  have unlisted : startsUnlisted owner (head.tokens behind) = false :=
    startsUnlisted_eq_false typed listed word
  have goesOn :
      ((head.tokens behind).isEmpty || startsWith "\x7d" (head.tokens behind)) = false := by
    rw [startsWith_eq_false_of_typeOf typed (by decide), tokens_eq]
    rfl
  rw [Source.readMember_eq, if_neg (by simp [goesOn]), if_neg (by simp [unlisted]), typed]
  change Except.ok (readTypedMember owner modifiers true (head.name :: behind)) = _
  rw [readTypedMember, if_pos (by simp [word, operator, this]), readMemberName_plain plain]

end MemberHead

def Lexeme.token (l : Lexeme) : Token :=
  ⟨l.kind, l.text, .start⟩

theorem typeOf_word (type name : String) (behind : List Token) :
    typeOf 0 ((Lexeme.word type).token :: (Lexeme.word name).token :: behind) =
      .ok (some (.simple type), (Lexeme.word name).token :: behind) := by
  have spelled : Spells (WrittenType.simple type).lexemes
      ((Lexeme.word type).token :: (Lexeme.word name).token :: behind)
      ((Lexeme.word name).token :: behind) := spells_cons.2 ⟨.start, _, rfl, spells_nil.2 rfl⟩
  obtain ⟨_, read, rfl⟩ :=
    (typeOf_spelled (Nat.zero_le maxNesting) spelled endsType_word).within (Nat.zero_le maxNesting)
  exact read

end ConventionLint.Source
