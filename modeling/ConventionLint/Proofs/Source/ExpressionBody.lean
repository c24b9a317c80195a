import ConventionLint.Proofs.Source.TypedMember
import ConventionLint.Source.FileReading

/-!
# Expression bodies

A property or method may have an expression for its body, between an arrow and a semicolon. One
member is read from it, and its tokens are passed over up to the semicolon, unless the expression
goes on behind a block: there only an equals sign keeps the reader from resuming in its midst.
-/
namespace ConventionLint.Source

/-- A block in braces stands outside of brackets, with `after` behind it. -/
def FollowsBlock (ts after : List Token) : Prop :=
  ∃ o inner c, Outside ts o (inner ++ c :: after) ∧ Balanced inner ∧
    o.isPunctuation "\x7b" = true ∧ c.isPunctuation "\x7d" = true

section

variable {t o c : Token} {ts inner after : List Token}

theorem FollowsBlock.suffix (follows : FollowsBlock ts after) : after <:+ ts := by
  obtain ⟨o, inner, c, ⟨before, rfl, -⟩, -⟩ := follows
  exact ⟨before ++ o :: (inner ++ [c]), by simp⟩

theorem not_followsBlock_nil : ¬FollowsBlock [] after := by
  rintro ⟨o, inner, c, outside, -⟩
  exact not_outside_nil outside

theorem followsBlock_plain (opens : t.opens = false) (closes : t.closes = false) :
    FollowsBlock (t :: ts) after ↔ FollowsBlock ts after := by
  simp only [FollowsBlock, outside_plain opens closes]
  constructor
  · rintro ⟨o, inner, c, ⟨rfl, -⟩ | outside, balanced, opening, closing⟩
    · simp [Token.opens, opening] at opens
    · exact ⟨o, inner, c, outside, balanced, opening, closing⟩
  · rintro ⟨o, inner, c, outside, block⟩
    exact ⟨o, inner, c, .inr outside, block⟩

theorem followsBlock_group (matching : o.isClosedBy c = true) (balanced : Balanced inner) :
    FollowsBlock (o :: (inner ++ c :: ts)) after ↔
      (o.isPunctuation "\x7b" = true ∧ after = ts) ∨ FollowsBlock ts after := by
  simp only [FollowsBlock, outside_group matching balanced]
  constructor
  · rintro ⟨o', inner', c', ⟨rfl, same⟩ | outside, balanced', opening, closing⟩
    · have matching' : o'.isClosedBy c' = true := by simp [Token.isClosedBy, opening, closing]
      have ended := skipGroup_closed balanced matching ts
      rw [← same, skipGroup_closed balanced' matching'] at ended
      exact .inl ⟨opening, ended⟩
    · exact .inr ⟨o', inner', c', outside, balanced', opening, closing⟩
  · rintro (⟨opening, rfl⟩ | ⟨o', inner', c', outside, block⟩)
    · have closing : c.isPunctuation "\x7d" = true := by
        simpa [Token.isClosedBy, opening, Token.isPunctuation_eq_false opening] using matching
      exact ⟨o, inner, c, .inl ⟨rfl, rfl⟩, balanced, opening, closing⟩
    · exact ⟨o', inner', c', .inr outside, block⟩

end

/-- The tokens go on behind a block, and not with an equals sign. -/
def Cut (ts after : List Token) : Prop :=
  FollowsBlock ts after ∧ after ≠ [] ∧ startsWith "=" after = false

/-- What is left behind an expression and its semicolon: `rest`, or what follows the first block
that cuts the expression short. -/
inductive Leaves (e : List Token) (semicolon : Token) (rest : List Token) : List Token → Prop
  | whole : (∀ after, ¬Cut e after) → Leaves e semicolon rest rest
  | cut {first : List Token} : Cut e first → (∀ after, Cut e after → after <:+ first) →
      Leaves e semicolon rest (first ++ semicolon :: rest)

section

variable {t o c semicolon : Token} {e ts inner after rest left : List Token}

theorem Leaves.congr (same : ∀ after, Cut e after ↔ Cut ts after)
    (leaves : Leaves e semicolon rest left) : Leaves ts semicolon rest left := by
  cases leaves with
  | whole uncut => exact .whole fun after cut => uncut after ((same after).2 cut)
  | cut cut first => exact .cut ((same _).1 cut) fun after cut => first after ((same after).2 cut)

theorem Leaves.eq_rest_iff (leaves : Leaves e semicolon rest left) :
    left = rest ↔ ∀ after, ¬Cut e after := by
  cases leaves with
  | whole uncut => exact ⟨fun _ => uncut, fun _ => rfl⟩
  | cut cut =>
    constructor
    · intro same
      have := congrArg List.length same
      simp only [List.length_append, List.length_cons] at this
      omega
    · exact fun uncut => absurd cut (uncut _)

theorem cut_plain (opens : t.opens = false) (closes : t.closes = false) :
    Cut (t :: ts) after ↔ Cut ts after := by
  rw [Cut, Cut, followsBlock_plain opens closes]

theorem cut_group (matching : o.isClosedBy c = true) (balanced : Balanced inner)
    (passed : o.isPunctuation "\x7b" = true → ts = [] ∨ startsWith "=" ts = true) :
    Cut (o :: (inner ++ c :: ts)) after ↔ Cut ts after := by
  rw [Cut, Cut, followsBlock_group matching balanced]
  constructor
  · rintro ⟨⟨braces, rfl⟩ | follows, more, other⟩
    · simp [more, other] at passed
      simp [passed] at braces
    · exact ⟨follows, more, other⟩
  · exact fun ⟨follows, more, other⟩ => ⟨.inr follows, more, other⟩

theorem goesOn_iff (unterminated : Unterminated ts) (ends : semicolon.isPunctuation ";" = true) :
    (startsWith ";" (ts ++ semicolon :: rest) || startsWith "=" (ts ++ semicolon :: rest)) = true ↔
      ts = [] ∨ startsWith "=" ts = true := by
  cases ts with
  | nil => simp [ends]
  | cons t ts =>
    have other : t.isPunctuation ";" = false := unterminated t ts ⟨[], rfl, .nil⟩
    simp [other]

/-- A block that cuts the expression short is the first to do so when no other stands before it. -/
theorem Leaves.block (matching : o.isClosedBy c = true) (inside : Balanced inner)
    (braces : o.isPunctuation "\x7b" = true) (short : ts ≠ [] ∧ startsWith "=" ts = false) :
    Leaves (o :: (inner ++ c :: ts)) semicolon rest (ts ++ semicolon :: rest) := by
  have follows : FollowsBlock (o :: (inner ++ c :: ts)) ts :=
    (followsBlock_group matching inside).2 (.inl ⟨braces, rfl⟩)
  refine .cut ⟨follows, short⟩ fun after cut => ?_
  rcases (followsBlock_group matching inside).1 cut.1 with ⟨-, rfl⟩ | later
  · exact List.suffix_rfl
  · exact later.suffix

/-- By induction on the expression: plain tokens and groups are passed over, and so is a block with
nothing or an equals sign behind it. -/
theorem leaves_skipMember (balanced : Balanced e) (unterminated : Unterminated e)
    (ends : semicolon.isPunctuation ";" = true) :
    Leaves e semicolon rest (skipMember 0 (e ++ semicolon :: rest)) := by
  induction balanced with
  | nil =>
    rw [List.nil_append, skipMember_outer_cons, if_pos ends]
    exact .whole fun after cut => not_followsBlock_nil cut.1
  | @plain t ts opens closes _ ih =>
    obtain ⟨other, unterminated⟩ := (unterminated_plain opens closes).1 unterminated
    rw [List.cons_append, skipMember_plain opens closes other]
    exact (ih unterminated).congr fun after => (cut_plain opens closes).symm
  | @group o c inner ts matching inside _ _ ih =>
    have unterminated := (unterminated_group matching inside).1 unterminated
    rw [List.cons_append, List.append_assoc, List.cons_append]
    by_cases braces : o.isPunctuation "\x7b" = true
    · rw [skipMember_block matching inside braces]
      by_cases passed : ts = [] ∨ startsWith "=" ts = true
      · rw [if_pos ((goesOn_iff unterminated ends).2 passed)]
        exact (ih unterminated).congr fun after =>
          (cut_group matching inside fun _ => passed).symm
      · rw [if_neg (passed ∘ (goesOn_iff unterminated ends).1)]
        rw [not_or, Bool.not_eq_true] at passed
        exact .block matching inside braces passed
    · rw [skipMember_group matching inside (by simpa using braces)]
      exact (ih unterminated).congr fun after =>
        (cut_group matching inside (absurd · braces)).symm

end

/-- What stands between the name and the arrow tells the kind of the member: nothing, or parameters
in parentheses. -/
inductive Announces : List Token → MemberDeclarationKind → Prop
  | property : Announces [] (.property none false)
  | method {o c : Token} {inner : List Token} : o.isPunctuation "(" = true → Balanced inner →
      c.isPunctuation ")" = true → Announces (o :: (inner ++ [c])) .method

structure ExpressionMember where
  type : List Token
  name : Token
  signature : List Token
  arrow : Token
  body : List Token
  semicolon : Token
  kind : MemberDeclarationKind
  listed : startsWithWord "event" type = false ∧ startsWithWord "operator" type = false
  named : name.isIdentifier = true ∧ name.isWord "operator" = false ∧ name.isWord "this" = false
  announced : Announces signature kind
  arrow_eq : arrow.isPunctuation "=>" = true
  balanced : Balanced body
  unterminated : Unterminated body
  semicolon_eq : semicolon.isPunctuation ";" = true

namespace ExpressionMember

variable (m : ExpressionMember)

def tokensBehindType (rest : List Token) : List Token :=
  m.name :: (m.signature ++ m.arrow :: (m.body ++ m.semicolon :: rest))

def tokens (rest : List Token) : List Token :=
  m.type ++ m.tokensBehindType rest

def declaration (owner : Owner) (modifiers : List String) : MemberDeclaration :=
  ⟨m.name.text, m.kind, (Accessibility.ofModifiers modifiers).getD owner.defaultAccessibility,
    m.name.position⟩

end ExpressionMember

section

variable {m : ExpressionMember} {owner : Owner} {modifiers : List String} {depth : Nat}
  {type : WrittenType} {t o name arrow : Token} {kind : MemberDeclarationKind}
  {ts more rest left signature behind : List Token}

theorem Announces.startsWithMark_eq (announces : Announces signature kind)
    (is : arrow.isPunctuation "=>" = true) :
    startsWithMark ["<", "."] (signature ++ arrow :: behind) = false := by
  cases announces with
  | property => simp [startsWithMark, Token.isPunctuation_eq_false is]
  | method opening => simp [startsWithMark, Token.isPunctuation_eq_false opening]

theorem Announces.readNamedMember_eq (announces : Announces signature kind)
    (is : arrow.isPunctuation "=>" = true) :
    readNamedMember owner modifiers name false (signature ++ arrow :: behind) =
      ([⟨name.text, kind, (Accessibility.ofModifiers modifiers).getD owner.defaultAccessibility,
        name.position⟩], skipMember 0 (signature ++ arrow :: behind)) := by
  cases announces with
  | property => simp [readNamedMember, is, Token.isPunctuation_eq_false is]
  | method opening => simp [readNamedMember, opening]

theorem ExpressionMember.readTypedMember_eq (m : ExpressionMember) :
    readTypedMember owner modifiers true (m.tokensBehindType rest) =
      ([m.declaration owner modifiers],
        skipMember 0 (m.signature ++ m.arrow :: (m.body ++ m.semicolon :: rest))) := by
  obtain ⟨word, operator, this⟩ := m.named
  rw [tokensBehindType, readTypedMember, if_pos (by simp [word, operator, this]),
    readMemberName_plain (m.announced.startsWithMark_eq m.arrow_eq)]
  exact m.announced.readNamedMember_eq m.arrow_eq

/-- Neither the parameters nor the arrow cut anything short. -/
theorem Announces.skipMember_eq (announces : Announces signature kind)
    (is : arrow.isPunctuation "=>" = true) :
    skipMember 0 (signature ++ arrow :: behind) = skipMember 0 behind := by
  have other {text : String} (different : "=>" ≠ text) : arrow.isPunctuation text = false :=
    Token.isPunctuation_eq_false is different
  have arrowed : skipMember 0 (arrow :: behind) = skipMember 0 behind :=
    skipMember_plain (by simp [Token.opens, other]) (by simp [Token.closes, other])
      (other (by decide)) behind
  cases announces with
  | property => exact arrowed
  | @method o c inner opening balanced closing =>
    have matching : o.isClosedBy c = true := by simp [Token.isClosedBy, opening, closing]
    have round : o.isPunctuation "\x7b" = false := Token.isPunctuation_eq_false opening (by decide)
    rw [List.cons_append, List.append_assoc, List.cons_append, List.nil_append,
      skipMember_group matching balanced round, arrowed]

/-- A property or method with an expression for its body is read as the one member it is, and its
tokens are left behind, `rest` alone remaining, exactly when no block cuts the expression short.
Else the reader resumes behind the first block that does. -/
theorem readMember_expressionMember (m : ExpressionMember) (owner : Owner) (modifiers : List String)
    (typed : typeOf depth (m.tokens rest) = .ok (some type, m.tokensBehindType rest)) :
    ∃ left, readMember owner depth modifiers (m.tokens rest) =
        .ok ([m.declaration owner modifiers], left) ∧
      Leaves m.body m.semicolon rest left ∧ (left = rest ↔ ∀ after, ¬Cut m.body after) := by
  obtain ⟨t, ts, shape⟩ : ∃ t ts, m.type = t :: ts := by
    have taken := typeOf_shorter typed
    rw [ExpressionMember.tokens, List.length_append] at taken
    exact List.exists_cons_of_length_pos (by omega)
  have tokens_eq : m.tokens rest = t :: (ts ++ m.tokensBehindType rest) := by
    rw [ExpressionMember.tokens, shape, List.cons_append]
  have listed : startsWithWord "event" (m.tokens rest) = false ∧
      startsWithWord "operator" (m.tokens rest) = false := by
    simpa [tokens_eq, shape] using m.listed
  have unlisted : startsUnlisted owner (m.tokens rest) = false :=
    startsUnlisted_eq_false typed listed m.named.1
  have goesOn : ((m.tokens rest).isEmpty || startsWith "\x7d" (m.tokens rest)) = false := by
    rw [startsWith_eq_false_of_typeOf typed (by decide), tokens_eq]
    rfl
  have leaves : Leaves m.body m.semicolon rest (skipMember 0 (m.body ++ m.semicolon :: rest)) :=
    leaves_skipMember m.balanced m.unterminated m.semicolon_eq
  refine ⟨_, ?_, leaves, leaves.eq_rest_iff⟩
  rw [readMember_eq, if_neg (by simp [goesOn]), if_neg (by simp [unlisted]), typed]
  change Except.ok (readTypedMember owner modifiers true (m.tokensBehindType rest)) = _
  rw [m.readTypedMember_eq, m.announced.skipMember_eq m.arrow_eq]

end

section

open Lexeme

theorem ExpressionMember.typeOf_word {m : ExpressionMember} {type name : String}
    (typed : m.type = [(word type).token]) (named : m.name = (word name).token)
    (rest : List Token) :
    typeOf 0 (m.tokens rest) = .ok (some (.simple type), m.tokensBehindType rest) := by
  rw [tokens, tokensBehindType, typed, named]
  exact Source.typeOf_word type name _

/-- `() => { ; }` -/
def lambda : List Token :=
  (mark "(").token :: ([] ++ (mark ")").token :: (mark "=>").token :: (mark "\x7b").token ::
    ([(mark ";").token] ++ (mark "\x7d").token :: []))

theorem balanced_lambda : Balanced lambda :=
  .group rfl .nil <| .plain rfl rfl <| .group rfl (.plain rfl rfl .nil) .nil

/-- `int F(int[] x) => f(() => { ; }) switch { };` -/
def switchMethod : ExpressionMember where
  type := [(word "int").token]
  name := (word "F").token
  signature := (mark "(").token :: ((word "int").token :: (mark "[").token :: ([] ++
    (mark "]").token :: [(word "x").token]) ++ [(mark ")").token])
  arrow := (mark "=>").token
  body := (word "f").token :: (mark "(").token :: (lambda ++ (mark ")").token ::
    (word "switch").token :: (mark "\x7b").token :: ([] ++ (mark "\x7d").token :: []))
  semicolon := (mark ";").token
  kind := .method
  listed := by decide
  named := by decide
  announced := .method rfl (.plain rfl rfl <| .group rfl .nil <| .plain rfl rfl .nil) rfl
  arrow_eq := by decide
  balanced := .plain rfl rfl <| .group rfl balanced_lambda <| .plain rfl rfl <|
    .group rfl .nil .nil
  unterminated := by
    rw [unterminated_plain rfl rfl, unterminated_group rfl balanced_lambda,
      unterminated_plain rfl rfl, unterminated_group rfl .nil]
    exact ⟨rfl, rfl, unterminated_nil⟩
  semicolon_eq := by decide

theorem readMember_expressionMember_switchMethod :
    typeOf 0 (switchMethod.tokens [(mark "\x7d").token]) =
        .ok (some (.simple "int"), switchMethod.tokensBehindType [(mark "\x7d").token]) ∧
      readMember ⟨"A", .plainClass⟩ 0 [] (switchMethod.tokens [(mark "\x7d").token]) =
        .ok ([⟨"F", .method, .privateAccess, .start⟩], [(mark "\x7d").token]) := by
  have typed := ExpressionMember.typeOf_word (m := switchMethod) rfl rfl [(mark "\x7d").token]
  obtain ⟨left, read, -, whole⟩ :=
    readMember_expressionMember switchMethod ⟨"A", .plainClass⟩ [] typed
  have uncut (after : List Token) : ¬Cut switchMethod.body after := by
    rw [switchMethod, cut_plain rfl rfl, cut_group rfl balanced_lambda (absurd · (by decide)),
      cut_plain rfl rfl, cut_group rfl .nil fun _ => .inl rfl]
    exact fun cut => not_followsBlock_nil cut.1
  rw [whole.2 uncut] at read
  exact ⟨typed, read⟩

/-- `object P => new B { } as C;`, where the expression goes on behind a block. -/
def castProperty : ExpressionMember where
  type := [(word "object").token]
  name := (word "P").token
  signature := []
  arrow := (mark "=>").token
  body := (word "new").token :: (word "B").token :: (mark "\x7b").token :: ([] ++
    (mark "\x7d").token :: [(word "as").token, (word "C").token])
  semicolon := (mark ";").token
  kind := .property none false
  listed := by decide
  named := by decide
  announced := .property
  arrow_eq := by decide
  balanced := .plain rfl rfl <| .plain rfl rfl <| .group rfl .nil <| .plain rfl rfl <|
    .plain rfl rfl .nil
  unterminated := by
    rw [unterminated_plain rfl rfl, unterminated_plain rfl rfl, unterminated_group rfl .nil,
      unterminated_plain rfl rfl, unterminated_plain rfl rfl]
    exact ⟨rfl, rfl, rfl, rfl, unterminated_nil⟩
  semicolon_eq := by decide

/-- Not every member with an expression for its body is left behind: the end of a cast is read as a
field of its own. -/
theorem expression_read_as_field :
    (¬∀ (m : ExpressionMember) (owner : Owner) (modifiers : List String) (depth : Nat)
      (type : WrittenType) (rest : List Token),
      typeOf depth (m.tokens rest) = .ok (some type, m.tokensBehindType rest) →
        readMember owner depth modifiers (m.tokens rest) =
          .ok ([m.declaration owner modifiers], rest)) ∧
    ((SourceFile.scan ⟨"a.cs"⟩
        "class A \x7b object P => new B \x7b \x7d as C; \x7d").toOption.map fun file =>
      file.types.map fun t => t.members.map fun m => (m.name, m.kind)) =
        some [[("P", .property none false), ("C", .field)]] := by
  constructor
  · intro claim
    have typed := ExpressionMember.typeOf_word (m := castProperty) rfl rfl []
    have read := claim castProperty ⟨"A", .plainClass⟩ [] 0 _ [] typed
    revert read
    decide +kernel
  · decide +kernel

end

end ConventionLint.Source
