import ConventionLint.Proofs.Source.TypedMember
import ConventionLint.Source.FileReading

/-!
# Field declarators

A declaration may declare several fields, with commas between them. All of them are read and the
tokens up to the semicolon are left behind. Commas in the brackets of an initialiser are hidden, but
commas in its lists of type arguments are not: a type argument that is a name alone, with a comma on
either side, is read as one more field.
-/
namespace ConventionLint.Source

/-! ## Initialisers -/

/-- Every comma stands in brackets or in a list of type arguments, and every semicolon in brackets.
The flag tells whether the tokens are themselves in such a list. -/
inductive Enclosed : Bool → List Token → Prop
  | nil {listed : Bool} : Enclosed listed []
  | plain {listed : Bool} {t : Token} {ts : List Token} : t.opens = false → t.closes = false →
      t.isPunctuation ";" = false → t.isPunctuation "," = false → Enclosed listed ts →
      Enclosed listed (t :: ts)
  | group {listed : Bool} {o c : Token} {inner ts : List Token} : o.isClosedBy c = true →
      Balanced inner → Enclosed listed ts → Enclosed listed (o :: (inner ++ c :: ts))
  | comma {t : Token} {ts : List Token} : t.isPunctuation "," = true → Enclosed true ts →
      Enclosed true (t :: ts)
  | arguments {listed : Bool} {less greater : Token} {inner ts : List Token} :
      less.isPunctuation "<" = true → greater.isPunctuation ">" = true → Enclosed true inner →
      Enclosed listed ts → Enclosed listed (less :: (inner ++ greater :: ts))

/-- A name stands outside of brackets as a declarator does: behind a comma, and before an equals
sign, a comma or a semicolon. -/
def Intrudes (ts : List Token) (x : Token) : Prop :=
  ∃ comma after, Outside ts comma (x :: after) ∧ comma.isPunctuation "," = true ∧
    x.isIdentifier = true ∧ startsWithMark ["=", ",", ";"] after = true

section

variable {listed : Bool} {t c x stop : Token} {e a b ts : List Token}

theorem Enclosed.balanced (enclosed : Enclosed listed e) : Balanced e := by
  induction enclosed with
  | nil => exact .nil
  | plain opens closes _ _ _ ih => exact .plain opens closes ih
  | group matching inside _ ih => exact .group matching inside ih
  | comma is _ ih =>
    obtain ⟨opens, closes⟩ := Token.plain_of_isPunctuation is (by decide)
    exact .plain opens closes ih
  | arguments less greater _ _ inside ih =>
    obtain ⟨opens, closes⟩ := Token.plain_of_isPunctuation less (by decide)
    obtain ⟨opens', closes'⟩ := Token.plain_of_isPunctuation greater (by decide)
    exact .plain opens closes (inside.append (.plain opens' closes' ih))

theorem unterminated_mark {text : String} (is : t.isPunctuation text = true)
    (other : text ∉ [";", "(", "[", "\x7b", ")", "]", "\x7d"]) (behind : Unterminated ts) :
    Unterminated (t :: ts) := by
  rw [List.mem_cons, not_or] at other
  obtain ⟨opens, closes⟩ := Token.plain_of_isPunctuation is other.2
  exact (unterminated_plain opens closes).2 ⟨Token.isPunctuation_eq_false is other.1, behind⟩

theorem Enclosed.unterminated (enclosed : Enclosed listed e) : Unterminated e := by
  induction enclosed with
  | nil => exact unterminated_nil
  | plain opens closes other _ _ ih => exact (unterminated_plain opens closes).2 ⟨other, ih⟩
  | group matching inside _ ih => exact (unterminated_group matching inside).2 ih
  | comma is _ ih => exact unterminated_mark is (by decide) ih
  | arguments less greater enclosed _ inside ih =>
    exact unterminated_mark less (by decide)
      (.append enclosed.balanced inside (unterminated_mark greater (by decide) ih))

/-- Two tokens at the end of a text with a mark in it stand behind the mark, unless one is it. -/
theorem suffix_of_append_cons {y : Token} (ending : [y, x] <:+ a ++ c :: b) (other : y ≠ c)
    (last : x ≠ c) : [y, x] <:+ b := by
  have mark : c :: b <:+ a ++ c :: b := List.suffix_append a (c :: b)
  rcases List.suffix_or_suffix_of_suffix ending mark with within | beyond
  · rcases List.suffix_cons_iff.1 within with same | within
    · exact absurd (List.cons.inj same).1 other
    · exact within
  · rcases List.suffix_cons_iff.1 beyond with same | beyond
    · exact absurd (List.cons.inj same).1.symm other
    · rcases List.suffix_cons_iff.1 beyond with same | beyond
      · exact absurd (List.cons.inj same).1.symm last
      · cases List.suffix_nil.1 beyond

/-- Where no list is open, a comma and a name are not the last tokens. -/
theorem Enclosed.listed_of_suffix {comma : Token} (enclosed : Enclosed listed e)
    (is : comma.isPunctuation "," = true) (word : x.isIdentifier = true)
    (ending : [comma, x] <:+ e) : listed = true := by
  have behind {mark : Token} {text : String} (at_ : mark.isPunctuation text = true)
      (other : text ≠ ",") {a b : List Token} (ending : [comma, x] <:+ a ++ mark :: b) :
      [comma, x] <:+ b := by
    refine suffix_of_append_cons ending ?_ ?_
    · rintro rfl
      rw [Token.isPunctuation_eq_false at_ other] at is
      cases is
    · rintro rfl
      rw [Token.isPunctuation_of_isIdentifier word] at at_
      cases at_
  induction enclosed with
  | nil => cases List.suffix_nil.1 ending
  | plain _ _ _ other _ ih =>
    rcases List.suffix_cons_iff.1 ending with same | ending
    · rw [(List.cons.inj same).1, other] at is
      cases is
    · exact ih ending
  | @group _ o c inner ts matching _ _ ih =>
    obtain ⟨text, closes, other⟩ : ∃ text, c.isPunctuation text = true ∧ text ≠ "," := by
      simp only [Token.isClosedBy, Bool.or_eq_true, Bool.and_eq_true] at matching
      rcases matching with (⟨-, right⟩ | ⟨-, right⟩) | ⟨-, right⟩
      all_goals exact ⟨_, right, by decide⟩
    rw [← List.cons_append] at ending
    exact ih (behind closes other ending)
  | comma => rfl
  | @arguments _ less greater inner ts _ closes _ _ _ ih =>
    rw [← List.cons_append] at ending
    exact ih (behind closes (by decide) ending)

/-- A name intrudes in an initialiser by its own tokens. -/
theorem Enclosed.intrudes_iff (enclosed : Enclosed false e) :
    Intrudes (e ++ [stop]) x ↔ Intrudes e x := by
  constructor
  · rintro ⟨comma, after, ⟨before, shape, balanced⟩, is, word, marked⟩
    rcases List.eq_nil_or_concat after with rfl | ⟨after, last, rfl⟩
    · simp [startsWithMark] at marked
    rw [List.concat_eq_append, ← List.cons_append, ← List.cons_append, ← List.append_assoc] at shape
    obtain ⟨rfl, same⟩ := List.append_inj' shape rfl
    cases after with
    | nil =>
      have := enclosed.listed_of_suffix is word (List.suffix_append before [comma, x])
      cases this
    | cons next after =>
      exact ⟨comma, next :: after, ⟨before, rfl, balanced⟩, is, word, by
        simpa [startsWithMark] using marked⟩
  · rintro ⟨comma, after, ⟨before, rfl, balanced⟩, is, word, marked⟩
    refine ⟨comma, after ++ [stop], ⟨before, by simp, balanced⟩, is, word, ?_⟩
    cases after with
    | nil => simp [startsWithMark] at marked
    | cons next after => simpa [startsWithMark] using marked

end

/-! ## Reading declarators -/

/-- The name of the declarator that the tokens start with, if they do. -/
def declaratorAt (ts : List Token) : List Token :=
  if startsDeclarator ts then ts.take 1 else []

section

variable {t o c x stop : Token} {e a b ts inner rest found behind : List Token}

theorem startsDeclarator_cons :
    startsDeclarator (t :: ts) = (t.isIdentifier && startsWithMark ["=", ",", ";"] ts) := by
  simp [startsDeclarator, startsWithMark, Bool.or_assoc]

theorem mem_declaratorAt : x ∈ declaratorAt ts ↔
    ∃ after, ts = x :: after ∧ x.isIdentifier = true ∧
      startsWithMark ["=", ",", ";"] after = true := by
  rw [declaratorAt]
  cases ts with
  | nil => simp [startsDeclarator]
  | cons t ts =>
    rw [startsDeclarator_cons]
    split
    next starts =>
      rw [Bool.and_eq_true] at starts
      simp only [List.take_succ_cons, List.take_zero, List.mem_singleton, List.cons.injEq]
      constructor
      · rintro rfl
        exact ⟨ts, ⟨rfl, rfl⟩, starts⟩
      · rintro ⟨_, ⟨rfl, -⟩, -⟩
        rfl
    next other =>
      simp only [List.not_mem_nil, List.cons.injEq, false_iff]
      rintro ⟨_, ⟨rfl, rfl⟩, starts⟩
      exact other (Bool.and_eq_true_iff.2 starts)

theorem startsWithMark_eq_false_of_mark (marked : startsWithMark ["=", ",", ";"] ts = true) :
    startsWithMark ["<", "."] ts = false := by
  cases ts with
  | nil => rfl
  | cons t ts =>
    simp only [startsWithMark, List.any_cons, List.any_nil, startsWith_cons, Bool.or_false,
      Bool.or_eq_true] at marked
    rcases marked with is | is | is
    all_goals simp [startsWithMark, Token.isPunctuation_eq_false is]

theorem reverse_declaratorAt : (declaratorAt ts).reverse = declaratorAt ts := by
  rw [declaratorAt]
  split
  · cases ts <;> rfl
  · rfl

theorem isIdentifier_eq_false_of_mark (marked : startsWithMark ["=", ",", ";"] (t :: ts) = true) :
    t.isIdentifier = false := by
  rw [Bool.eq_false_iff]
  intro word
  simp [startsWithMark, Token.isPunctuation_of_isIdentifier word] at marked

/-- Which of the marks ends an initialiser makes no difference to the names before it. -/
theorem declaratorAt_append (first : startsWithMark ["=", ",", ";"] a = true)
    (second : startsWithMark ["=", ",", ";"] b = true) (ts : List Token) :
    declaratorAt (ts ++ a) = declaratorAt (ts ++ b) := by
  rcases ts with _ | ⟨t, _ | ⟨u, ts⟩⟩
  · have unnamed {a : List Token} (marked : startsWithMark ["=", ",", ";"] a = true) :
        declaratorAt a = [] := by
      cases a with
      | nil => simp [startsWithMark] at marked
      | cons t a => simp [declaratorAt, startsDeclarator_cons, isIdentifier_eq_false_of_mark marked]
    rw [List.nil_append, List.nil_append, unnamed first, unnamed second]
  · simp [declaratorAt, startsDeclarator_cons, first, second]
  · simp [declaratorAt, startsDeclarator, startsWith]

theorem readDeclarators_inner_cons (n : Nat) (found : List Token) (t : Token) (ts : List Token) :
    readDeclarators (n + 1) found (t :: ts) =
      if t.opens then readDeclarators (n + 2) found ts
      else if t.closes then readDeclarators n found ts
      else readDeclarators (n + 1) found ts := by
  rw [readDeclarators.eq_def]
  simp

theorem readDeclarators_balanced (balanced : Balanced ts) (n : Nat) (found behind : List Token) :
    readDeclarators (n + 1) found (ts ++ behind) = readDeclarators (n + 1) found behind := by
  induction balanced generalizing n behind with
  | nil => rfl
  | plain opens closes _ ih => simp [readDeclarators_inner_cons, opens, closes, ih]
  | group matching _ _ inside ih =>
    have opens := Token.opens_of_isClosedBy matching
    have closes := Token.closes_of_isClosedBy matching
    have unopened := Token.opens_eq_false_of_closes closes
    simp [readDeclarators_inner_cons, opens, inside, unopened, closes, ih]

theorem readDeclarators_group (matching : o.isClosedBy c = true) (inside : Balanced inner)
    (found behind : List Token) :
    readDeclarators 0 found (o :: (inner ++ c :: behind)) = readDeclarators 0 found behind := by
  have opens := Token.opens_of_isClosedBy matching
  have closes := Token.closes_of_isClosedBy matching
  have bracket := Token.isPunctuation_of_opens opens
  have other : o.isPunctuation "," = false := by
    rw [Bool.eq_false_iff]
    intro comma
    rw [(Token.plain_of_isPunctuation comma (by decide)).1] at opens
    cases opens
  rw [readDeclarators.eq_def]
  simp only [bracket, other, opens, Bool.and_false, Bool.false_eq_true, ↓reduceIte]
  rw [readDeclarators_balanced inside, readDeclarators_inner_cons,
    if_neg (by simp [Token.opens_eq_false_of_closes closes]), if_pos closes]

theorem readDeclarators_plain (opens : t.opens = false) (closes : t.closes = false)
    (semicolon : t.isPunctuation ";" = false) (comma : t.isPunctuation "," = false)
    (found behind : List Token) :
    readDeclarators 0 found (t :: behind) = readDeclarators 0 found behind := by
  have brace : t.isPunctuation "\x7d" = false := by
    simp only [Token.closes, Bool.or_eq_false_iff] at closes
    exact closes.2
  rw [readDeclarators.eq_def]
  simp [opens, closes, semicolon, comma, brace]

theorem readDeclarators_name (word : t.isIdentifier = true) (found behind : List Token) :
    readDeclarators 0 found (t :: behind) = readDeclarators 0 found behind := by
  obtain ⟨opens, closes⟩ := Token.plain_of_isIdentifier word
  exact readDeclarators_plain opens closes (Token.isPunctuation_of_isIdentifier word _)
    (Token.isPunctuation_of_isIdentifier word _) found behind

/-- A comma is passed over, and so is the name of a declarator behind it. -/
theorem readDeclarators_comma (comma : t.isPunctuation "," = true) (found behind : List Token) :
    readDeclarators 0 found (t :: behind) =
      readDeclarators 0 (declaratorAt behind ++ found) behind := by
  have other (text : String) (different : "," ≠ text) : t.isPunctuation text = false :=
    Token.isPunctuation_eq_false comma different
  rw [readDeclarators.eq_def]
  simp only [other ";" (by decide), other "\x7d" (by decide), comma,
    Bool.and_false, Bool.false_eq_true, decide_true, Bool.and_self, ↓reduceIte]
  cases behind with
  | nil =>
    rw [readDeclarators.eq_def]
    simp [declaratorAt, startsDeclarator]
  | cons name behind =>
    dsimp only
    rw [declaratorAt]
    split
    · next starts =>
      rw [startsDeclarator_cons, Bool.and_eq_true] at starts
      rw [List.take_succ_cons, List.take_zero, List.singleton_append, readDeclarators_name starts.1]
    · rfl

theorem not_intrudes_singleton : ¬Intrudes [stop] x := by
  rintro ⟨comma, after, ⟨before, shape, -⟩, -⟩
  have := congrArg List.length shape
  simp only [List.length_append, List.length_cons, List.length_nil] at this
  omega

theorem intrudes_plain (opens : t.opens = false) (closes : t.closes = false)
    (other : t.isPunctuation "," = false) : Intrudes (t :: ts) x ↔ Intrudes ts x := by
  simp only [Intrudes, outside_plain opens closes]
  constructor
  · rintro ⟨comma, after, ⟨rfl, -⟩ | outside, is, name⟩
    · rw [other] at is
      cases is
    · exact ⟨comma, after, outside, is, name⟩
  · rintro ⟨comma, after, outside, name⟩
    exact ⟨comma, after, .inr outside, name⟩

theorem intrudes_comma (comma : t.isPunctuation "," = true) :
    Intrudes (t :: ts) x ↔ x ∈ declaratorAt ts ∨ Intrudes ts x := by
  obtain ⟨opens, closes⟩ := Token.plain_of_isPunctuation comma (by decide)
  simp only [Intrudes, outside_plain opens closes, mem_declaratorAt]
  constructor
  · rintro ⟨comma, after, ⟨rfl, rfl⟩ | outside, is, name⟩
    · exact .inl ⟨after, rfl, name⟩
    · exact .inr ⟨comma, after, outside, is, name⟩
  · rintro (⟨after, rfl, name⟩ | ⟨comma, after, outside, name⟩)
    · exact ⟨t, after, .inl ⟨rfl, rfl⟩, comma, name⟩
    · exact ⟨comma, after, .inr outside, name⟩

theorem intrudes_group (matching : o.isClosedBy c = true) (inside : Balanced inner) :
    Intrudes (o :: (inner ++ c :: ts)) x ↔ Intrudes ts x := by
  simp only [Intrudes, outside_group matching inside]
  constructor
  · rintro ⟨comma, after, ⟨rfl, -⟩ | outside, is, name⟩
    · have opens := Token.opens_of_isClosedBy matching
      rw [(Token.plain_of_isPunctuation is (by decide)).1] at opens
      cases opens
    · exact ⟨comma, after, outside, is, name⟩
  · rintro ⟨comma, after, outside, name⟩
    exact ⟨comma, after, .inr outside, name⟩

/-- By induction on the initialiser: the names that intrude in it are added to those found, in their
order, and nothing else is. -/
theorem exists_strays (balanced : Balanced e) (unterminated : Unterminated e) :
    ∃ strays : List Token, strays.Sublist e.tail ∧
      ∀ stop, startsWithMark ["=", ",", ";"] [stop] = true →
        (∀ x, x ∈ strays ↔ Intrudes (e ++ [stop]) x) ∧
        ∀ found behind, readDeclarators 0 found (e ++ stop :: behind) =
          readDeclarators 0 (strays.reverse ++ found) (stop :: behind) := by
  induction balanced with
  | nil =>
    refine ⟨[], List.Sublist.refl _, fun stop _ => ⟨fun x => ?_, fun _ _ => rfl⟩⟩
    simpa using not_intrudes_singleton
  | @plain t ts opens closes _ ih =>
    obtain ⟨semicolon, unterminated⟩ := (unterminated_plain opens closes).1 unterminated
    obtain ⟨strays, sublist, reads⟩ := ih unterminated
    by_cases comma : t.isPunctuation "," = true
    · have marked : startsWithMark ["=", ",", ";"] [t] = true := by simp [startsWithMark, comma]
      refine ⟨declaratorAt (ts ++ [t]) ++ strays, ?_, fun stop ends => ⟨fun x => ?_, fun found
        behind => ?_⟩⟩
      · cases ts with
        | nil =>
          rw [List.eq_nil_of_sublist_nil sublist]
          simp [declaratorAt, startsDeclarator]
        | cons name ts =>
          rw [declaratorAt, List.tail_cons]
          split
          · exact sublist.cons_cons name
          · exact sublist.cons name
      · rw [List.cons_append, intrudes_comma comma, List.mem_append, (reads stop ends).1,
          declaratorAt_append marked ends]
      · have ends' : startsWithMark ["=", ",", ";"] (stop :: behind) = true := ends
        rw [List.cons_append, readDeclarators_comma comma, (reads stop ends).2,
          declaratorAt_append marked ends' ts, List.reverse_append, reverse_declaratorAt,
          List.append_assoc]
    · rw [Bool.not_eq_true] at comma
      refine ⟨strays, sublist.trans (List.tail_sublist ts), fun stop ends => ⟨fun x => ?_, fun found
        behind => ?_⟩⟩
      · rw [List.cons_append, intrudes_plain opens closes comma, (reads stop ends).1]
      · rw [List.cons_append, readDeclarators_plain opens closes semicolon comma,
          (reads stop ends).2]
  | @group o c inner ts matching inside _ _ ih =>
    obtain ⟨strays, sublist, reads⟩ := ih ((unterminated_group matching inside).1 unterminated)
    refine ⟨strays, ?_, fun stop ends => ⟨fun x => ?_, fun found behind => ?_⟩⟩
    · exact (sublist.trans (List.tail_sublist ts)).trans
        ((List.sublist_cons_self c ts).trans (List.sublist_append_right inner (c :: ts)))
    · rw [List.cons_append, List.append_assoc, List.cons_append, intrudes_group matching inside,
        (reads stop ends).1]
    · rw [List.cons_append, List.append_assoc, List.cons_append,
        readDeclarators_group matching inside, (reads stop ends).2]

end

/-! ## Fields -/

/-- What may stand between the name of a field and the mark that ends its declarator. -/
inductive IsInitializer : List Token → Prop
  | absent : IsInitializer []
  | value {equals : Token} {e : List Token} : equals.isPunctuation "=" = true → Enclosed false e →
      IsInitializer (equals :: e)

/-- A field as it is declared, with its initialiser. -/
structure Declarator where
  name : Token
  initializer : List Token
  named : name.isIdentifier = true ∧ name.isWord "operator" = false ∧ name.isWord "this" = false
  initialized : IsInitializer initializer

namespace Declarator

variable (d : Declarator) {stop : Token} {behind : List Token}

def tokens : List Token :=
  d.name :: d.initializer

theorem enclosed : Enclosed false d.initializer := by
  obtain ⟨name, initializer, -, initialized⟩ := d
  cases initialized with
  | absent => exact .nil
  | value equals enclosed =>
    obtain ⟨opens, closes⟩ := Token.plain_of_isPunctuation equals (by decide)
    exact .plain opens closes (Token.isPunctuation_eq_false equals (by decide))
      (Token.isPunctuation_eq_false equals (by decide)) enclosed

theorem startsWithMark_initializer (ends : startsWithMark ["=", ",", ";"] [stop] = true) :
    startsWithMark ["=", ",", ";"] (d.initializer ++ stop :: behind) = true := by
  obtain ⟨name, initializer, -, initialized⟩ := d
  cases initialized with
  | absent => exact ends
  | value equals => simp [startsWithMark, equals]

/-- Behind a comma the name is read, whatever follows it. -/
theorem declaratorAt_tokens (ends : startsWithMark ["=", ",", ";"] [stop] = true) :
    declaratorAt (d.tokens ++ stop :: behind) = [d.name] := by
  have starts : startsDeclarator (d.tokens ++ stop :: behind) = true := by
    rw [tokens, List.cons_append, startsDeclarator_cons, d.named.1,
      d.startsWithMark_initializer ends, Bool.and_self]
  rw [declaratorAt, if_pos starts]
  rfl

/-- Reading the initialiser adds the given names to those found. -/
def Adds (strays : List Token) : Prop :=
  ∀ stop, startsWithMark ["=", ",", ";"] [stop] = true → ∀ found behind,
    readDeclarators 0 found (d.initializer ++ stop :: behind) =
      readDeclarators 0 (strays.reverse ++ found) (stop :: behind)

theorem exists_adds : ∃ strays : List Token, strays.Sublist d.initializer ∧
    (∀ x, x ∈ strays ↔ Intrudes d.initializer x) ∧ d.Adds strays := by
  obtain ⟨strays, sublist, reads⟩ := exists_strays d.enclosed.balanced d.enclosed.unterminated
  refine ⟨strays, sublist.trans (List.tail_sublist _), fun x => ?_, fun stop ends =>
    (reads stop ends).2⟩
  obtain ⟨stop, ends⟩ : ∃ stop, startsWithMark ["=", ",", ";"] [stop] = true :=
    ⟨⟨.punctuation, ";", .start⟩, by decide⟩
  rw [(reads stop ends).1, d.enclosed.intrudes_iff]

end Declarator

structure FieldMember where
  type : List Token
  first : Declarator
  /-- Further declarators, each with the comma before it. -/
  more : List (Token × Declarator)
  semicolon : Token
  listed : startsWithWord "event" type = false ∧ startsWithWord "operator" type = false
  commas : ∀ item ∈ more, item.1.isPunctuation "," = true
  semicolon_eq : semicolon.isPunctuation ";" = true

def furtherTokens (more : List (Token × Declarator)) (behind : List Token) : List Token :=
  more.flatMap (fun item => item.1 :: item.2.tokens) ++ behind

namespace FieldMember

variable (m : FieldMember)

def head : MemberHead :=
  ⟨m.type, m.first.name, m.listed, m.first.named⟩

def tokensBehindName (rest : List Token) : List Token :=
  m.first.initializer ++ furtherTokens m.more (m.semicolon :: rest)

def tokens (rest : List Token) : List Token :=
  m.head.tokens (m.tokensBehindName rest)

def declarators : List Declarator :=
  m.first :: m.more.map (·.2)

def names : List Token :=
  m.declarators.map (·.name)

end FieldMember

def fieldOf (owner : Owner) (modifiers : List String) (name : Token) : MemberDeclaration :=
  ⟨name.text, .field, (Accessibility.ofModifiers modifiers).getD owner.defaultAccessibility,
    name.position⟩

section

variable {owner : Owner} {modifiers : List String} {depth : Nat} {semicolon : Token}
  {rest found : List Token} {more : List (Token × Declarator)} {strays : Declarator → List Token}

theorem exists_stop (rest : List Token) (commas : ∀ item ∈ more, item.1.isPunctuation "," = true)
    (ends : semicolon.isPunctuation ";" = true) :
    ∃ stop behind, furtherTokens more (semicolon :: rest) = stop :: behind ∧
      startsWithMark ["=", ",", ";"] [stop] = true := by
  cases more with
  | nil => exact ⟨semicolon, rest, rfl, by simp [startsWithMark, ends]⟩
  | cons item more =>
    exact ⟨item.1, _, rfl, by simp [startsWithMark, commas item List.mem_cons_self]⟩

theorem length_flatMap_cons {α β : Type} (f : α → β) (g : α → List β) (as : List α) :
    (as.flatMap fun a => f a :: g a).length = as.length + (as.flatMap g).length := by
  induction as with
  | nil => rfl
  | cons a as ih =>
    simp only [List.flatMap_cons, List.length_append, List.length_cons, ih]
    omega

/-- The run over all declarators: each adds its name and the names that intrude in its initialiser. -/
theorem readDeclarators_furtherTokens (adds : ∀ d : Declarator, d.Adds (strays d))
    (commas : ∀ item ∈ more, item.1.isPunctuation "," = true)
    (ends : semicolon.isPunctuation ";" = true) (found : List Token) :
    readDeclarators 0 found (furtherTokens more (semicolon :: rest)) =
      (found.reverse ++ more.flatMap fun item => item.2.name :: strays item.2, rest) := by
  induction more generalizing found with
  | nil =>
    rw [furtherTokens, List.flatMap_nil, List.nil_append, readDeclarators.eq_def]
    simp [ends]
  | cons item more ih =>
    have commas' : ∀ item ∈ more, item.1.isPunctuation "," = true := fun other member =>
      commas other (List.mem_cons_of_mem item member)
    obtain ⟨stop, behind, shape, mark⟩ := exists_stop rest commas' ends
    have tokens_eq : furtherTokens (item :: more) (semicolon :: rest) =
        item.1 :: (item.2.tokens ++ stop :: behind) := by
      rw [← shape, furtherTokens, List.flatMap_cons, List.append_assoc, List.cons_append]
      rfl
    rw [tokens_eq, readDeclarators_comma (commas item List.mem_cons_self),
      item.2.declaratorAt_tokens mark, Declarator.tokens, List.singleton_append, List.cons_append,
      readDeclarators_name item.2.named.1, adds item.2 _ mark, ← shape, ih commas']
    simp

namespace FieldMember

variable (m : FieldMember)

theorem startsWithMark_tokensBehindName (rest : List Token) :
    startsWithMark ["=", ",", ";"] (m.tokensBehindName rest) = true := by
  obtain ⟨stop, behind, shape, mark⟩ := exists_stop rest m.commas m.semicolon_eq
  rw [tokensBehindName, shape]
  exact m.first.startsWithMark_initializer mark

theorem readDeclarators_eq (rest : List Token) (adds : ∀ d : Declarator, d.Adds (strays d)) :
    readDeclarators 0 [] (m.tokensBehindName rest) =
      (strays m.first ++ m.more.flatMap fun item => item.2.name :: strays item.2, rest) := by
  obtain ⟨stop, behind, shape, mark⟩ := exists_stop rest m.commas m.semicolon_eq
  rw [tokensBehindName, shape, adds m.first stop mark, ← shape,
    readDeclarators_furtherTokens adds m.commas m.semicolon_eq]
  simp

/-- What follows the first name tells that fields are declared. -/
theorem readNamedMember_eq (adds : ∀ d : Declarator, d.Adds (strays d)) :
    readNamedMember owner modifiers m.head.name false (m.tokensBehindName rest) =
      ((m.declarators.flatMap fun d => d.name :: strays d).map (fieldOf owner modifiers), rest) := by
  have read := m.readDeclarators_eq rest adds
  have marked := m.startsWithMark_tokensBehindName rest
  cases shape : m.tokensBehindName rest with
  | nil => simp [shape, startsWithMark] at marked
  | cons t ts =>
    rw [shape] at read marked
    have further : startsWith "=" (t :: ts) || startsWith "," (t :: ts) ||
        startsWith ";" (t :: ts) := by
      simpa [startsWithMark, Bool.or_assoc] using marked
    have other : startsWith "(" (t :: ts) = false ∧ startsWith "\x7b" (t :: ts) = false ∧
        startsWith "=>" (t :: ts) = false := by
      simp only [startsWith_cons, Bool.or_eq_true] at further ⊢
      rcases further with (is | is) | is
      all_goals simp [Token.isPunctuation_eq_false is]
    have declared : (m.declarators.flatMap fun d => d.name :: strays d) =
        m.head.name :: (strays m.first ++ m.more.flatMap fun item => item.2.name :: strays item.2) := by
      simp [declarators, head, List.flatMap_map]
    rw [readNamedMember, declared]
    simp only [other, further, read, Bool.or_self, Bool.false_eq_true, ↓reduceIte]
    rfl

/-- All fields of a declaration are read and its tokens are left behind, `rest` alone remaining. What
is read beside them are the names that intrude in an initialiser, each behind the field that it
intrudes in; so only the fields declared are read exactly when no name intrudes. -/
theorem readMember_fieldMember (owner : Owner) (modifiers : List String)
    (typed : m.head.IsTyped depth (m.tokensBehindName rest)) :
    ∃ strays : Declarator → List Token,
      (∀ d, (strays d).Sublist d.initializer ∧ ∀ x, x ∈ strays d ↔ Intrudes d.initializer x) ∧
      readMember owner depth modifiers (m.tokens rest) =
        .ok ((m.declarators.flatMap fun d => d.name :: strays d).map (fieldOf owner modifiers),
          rest) ∧
      (readMember owner depth modifiers (m.tokens rest) =
          .ok (m.names.map (fieldOf owner modifiers), rest) ↔
        ∀ d ∈ m.declarators, ∀ x, ¬Intrudes d.initializer x) := by
  choose strays sublist mem_iff adds using Declarator.exists_adds
  have plain : startsWithMark ["<", "."] (m.tokensBehindName rest) = false :=
    startsWithMark_eq_false_of_mark (m.startsWithMark_tokensBehindName _)
  have read : readMember owner depth modifiers (m.tokens rest) =
      .ok ((m.declarators.flatMap fun d => d.name :: strays d).map (fieldOf owner modifiers),
        rest) := by
    rw [tokens, MemberHead.readMember_eq typed plain, m.readNamedMember_eq adds]
  refine ⟨strays, fun d => ⟨sublist d, mem_iff d⟩, read, ?_⟩
  rw [read, Except.ok.injEq, Prod.mk.injEq, and_iff_left rfl]
  constructor
  · intro same d member x intrudes
    have lengths := congrArg List.length same
    rw [List.length_map, List.length_map, names, List.length_map, length_flatMap_cons] at lengths
    have none : m.declarators.flatMap strays = [] := List.length_eq_zero_iff.1 (by omega)
    have stray : x ∈ strays d := (mem_iff d x).2 intrudes
    rw [List.flatMap_eq_nil_iff.1 none d member] at stray
    cases stray
  · intro alone
    have none : ∀ d ∈ m.declarators, d.name :: strays d = [d.name] := fun d member => by
      rw [List.eq_nil_iff_forall_not_mem.2 fun x stray => alone d member x ((mem_iff d x).1 stray)]
    rw [List.flatMap_congr none, ← List.map_eq_flatMap, names]

end FieldMember

end

section

open Lexeme

/-- `new M<…>()` -/
def newMap (arguments : List Token) : List Token :=
  (word "new").token :: (word "M").token :: (mark "<").token :: (arguments ++ (mark ">").token ::
    (mark "(").token :: ([] ++ (mark ")").token :: []))

theorem isPunctuation_token (text : String) : (mark text).token.isPunctuation text = true := by
  simp [mark, Lexeme.token, Token.isPunctuation]

/-- `Table map = new M<…>(), size;` -/
def mapField (arguments : List Token) (enclosed : Enclosed true arguments) : FieldMember where
  type := [(word "Table").token]
  first := ⟨(word "map").token, (mark "=").token :: newMap arguments, by decide,
    .value rfl <| .plain rfl rfl rfl rfl <| .plain rfl rfl rfl rfl <| .arguments rfl rfl enclosed <|
      .group rfl .nil .nil⟩
  more := [((mark ",").token, ⟨(word "size").token, [], by decide, .absent⟩)]
  semicolon := (mark ";").token
  listed := by decide
  commas := by decide
  semicolon_eq := isPunctuation_token ";"

theorem isTyped_mapField {arguments : List Token} (enclosed : Enclosed true arguments)
    (rest : List Token) : (mapField arguments enclosed).head.IsTyped 0
      ((mapField arguments enclosed).tokensBehindName rest) :=
  ⟨_, typeOf_word "Table" "map" _⟩

/-- `A, B` -/
def twoNames : List Token :=
  [(word "A").token, (mark ",").token, (word "B").token]

theorem enclosed_twoNames : Enclosed true twoNames :=
  .plain rfl rfl rfl rfl <| .comma rfl <| .plain rfl rfl rfl rfl .nil

theorem FieldMember.readMember_fieldMember_twoNames :
    (mapField twoNames enclosed_twoNames).head.IsTyped 0
        ((mapField twoNames enclosed_twoNames).tokensBehindName []) ∧
      readMember ⟨"A", .plainClass⟩ 0 ["public"] ((mapField twoNames enclosed_twoNames).tokens []) =
        .ok ([⟨"map", .field, .publicAccess, .start⟩, ⟨"size", .field, .publicAccess, .start⟩], []) := by
  have typed := isTyped_mapField enclosed_twoNames []
  obtain ⟨strays, -, -, exact⟩ :=
    readMember_fieldMember _ ⟨"A", .plainClass⟩ ["public"] typed
  refine ⟨typed, exact.2 fun d member x intrudes => ?_⟩
  have nothing : ¬Intrudes [] x := by
    rintro ⟨comma, after, outside, -⟩
    exact not_outside_nil outside
  have first : ¬Intrudes ((mark "=").token :: newMap twoNames) x := by
    rw [intrudes_plain rfl rfl rfl, newMap, intrudes_plain rfl rfl rfl, intrudes_plain rfl rfl rfl,
      intrudes_plain rfl rfl rfl, twoNames, List.cons_append, intrudes_plain rfl rfl rfl,
      List.cons_append, intrudes_comma rfl, List.cons_append, intrudes_plain rfl rfl rfl,
      List.nil_append, intrudes_plain rfl rfl rfl, intrudes_group rfl .nil]
    simpa [declaratorAt, startsDeclarator, Lexeme.token, mark, word] using nothing
  simp only [FieldMember.declarators, mapField, List.map_cons, List.map_nil, List.mem_cons,
    List.not_mem_nil, or_false] at member
  rcases member with rfl | rfl
  · exact first intrudes
  · exact nothing intrudes

/-- `A, B, C` -/
def threeNames : List Token :=
  [(word "A").token, (mark ",").token, (word "B").token, (mark ",").token, (word "C").token]

theorem enclosed_threeNames : Enclosed true threeNames :=
  .plain rfl rfl rfl rfl <| .comma rfl <| .plain rfl rfl rfl rfl <| .comma rfl <|
    .plain rfl rfl rfl rfl .nil

/-- The second of three type arguments is read as a field of its own. -/
theorem type_argument_read_as_field :
    (¬∀ (m : FieldMember) (owner : Owner) (modifiers : List String) (depth : Nat)
      (rest : List Token), m.head.IsTyped depth (m.tokensBehindName rest) →
        readMember owner depth modifiers (m.tokens rest) =
          .ok (m.names.map (fieldOf owner modifiers), rest)) ∧
    ((SourceFile.scan ⟨"a.cs"⟩
        "class A \x7b object F = new M<A, B, C>(), G; \x7d").toOption.map fun file =>
      file.types.map fun t => t.members.map fun m => (m.name, m.kind)) =
        some [[("F", .field), ("B", .field), ("G", .field)]] := by
  constructor
  · intro claim
    have read := claim (mapField threeNames enclosed_threeNames) ⟨"A", .plainClass⟩ [] 0 []
      (isTyped_mapField enclosed_threeNames [])
    revert read
    decide +kernel
  · decide +kernel

end

end ConventionLint.Source
