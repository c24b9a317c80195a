import ConventionLint.Source.Balanced

/-!
# Brackets

Tokens whose brackets stand in matching pairs. What is inside a group is hidden from whoever counts
brackets, so that functions that skip tokens pass over it whatever it is.
-/
namespace ConventionLint.Source

namespace Token

def isClosedBy (o c : Token) : Bool :=
  (o.isPunctuation "(" && c.isPunctuation ")") || (o.isPunctuation "[" && c.isPunctuation "]")
    || (o.isPunctuation "\x7b" && c.isPunctuation "\x7d")

variable {t o c : Token}

theorem isPunctuation_eq_false {text other : String} (is : t.isPunctuation text = true)
    (different : text ≠ other) : t.isPunctuation other = false := by
  simp only [isPunctuation, Bool.and_eq_true, decide_eq_true_eq] at is
  simp [isPunctuation, is.2, different]

theorem isPunctuation_of_isIdentifier (word : t.isIdentifier = true) (text : String) :
    t.isPunctuation text = false := by
  simp only [isIdentifier, decide_eq_true_eq] at word
  simp [isPunctuation, word]

theorem opens_of_isClosedBy (matching : o.isClosedBy c = true) : o.opens = true := by
  simp only [isClosedBy, Bool.or_eq_true, Bool.and_eq_true] at matching
  rcases matching with (⟨left, -⟩ | ⟨left, -⟩) | ⟨left, -⟩
  all_goals simp [opens, left]

/-- An opening bracket is nothing that could end a member. -/
theorem isPunctuation_of_opens (opening : o.opens = true) :
    o.isPunctuation ";" = false ∧ o.isPunctuation "\x7d" = false := by
  simp only [opens, Bool.or_eq_true] at opening
  rcases opening with (is | is) | is
  all_goals simp [isPunctuation_eq_false is]

theorem closes_of_isClosedBy (matching : o.isClosedBy c = true) : c.closes = true := by
  simp only [isClosedBy, Bool.or_eq_true, Bool.and_eq_true] at matching
  rcases matching with (⟨-, right⟩ | ⟨-, right⟩) | ⟨-, right⟩
  all_goals simp [closes, right]

theorem opens_eq_false_of_closes (closing : t.closes = true) : t.opens = false := by
  simp only [closes, Bool.or_eq_true] at closing
  rcases closing with (is | is) | is
  all_goals simp [opens, isPunctuation_eq_false is]

/-- A mark that is no bracket neither opens nor closes a group. -/
theorem plain_of_isPunctuation {text : String} (is : t.isPunctuation text = true)
    (other : text ∉ ["(", "[", "\x7b", ")", "]", "\x7d"]) : t.opens = false ∧ t.closes = false := by
  simp only [List.mem_cons, List.not_mem_nil, or_false, not_or] at other
  simp [opens, closes, isPunctuation_eq_false is, other]

theorem plain_of_isIdentifier (word : t.isIdentifier = true) :
    t.opens = false ∧ t.closes = false := by
  simp [opens, closes, isPunctuation_of_isIdentifier word]

end Token

/-- Brackets stand in pairs that match, with balanced tokens in them. -/
inductive Balanced : List Token → Prop
  | nil : Balanced []
  | plain {t : Token} {ts : List Token} : t.opens = false → t.closes = false → Balanced ts →
      Balanced (t :: ts)
  | group {o c : Token} {inner ts : List Token} : o.isClosedBy c = true → Balanced inner →
      Balanced ts → Balanced (o :: (inner ++ c :: ts))

section

variable {o c : Token} {a b ts inner : List Token}

theorem Balanced.append (first : Balanced a) (second : Balanced b) : Balanced (a ++ b) := by
  induction first with
  | nil => exact second
  | plain opens closes _ ih => exact .plain opens closes ih
  | group matching inside _ _ ih =>
    rw [List.cons_append, List.append_assoc, List.cons_append]
    exact .group matching inside ih

theorem skipGroup_balanced (balanced : Balanced ts) (n : Nat) (behind : List Token) :
    skipGroup n (ts ++ behind) = skipGroup n behind := by
  induction balanced generalizing n behind with
  | nil => rfl
  | plain opens closes _ ih => simp [skipGroup, opens, closes, ih]
  | group matching _ _ inside ih =>
    have opens := Token.opens_of_isClosedBy matching
    have closes := Token.closes_of_isClosedBy matching
    have unopened := Token.opens_eq_false_of_closes closes
    simp [skipGroup, opens, inside, unopened, closes, ih]

theorem skipGroup_closed (balanced : Balanced inner) (matching : o.isClosedBy c = true)
    (behind : List Token) : skipGroup 0 (inner ++ c :: behind) = behind := by
  have closes := Token.closes_of_isClosedBy matching
  rw [skipGroup_balanced balanced]
  simp [skipGroup, Token.opens_eq_false_of_closes closes, closes]

theorem skipMember_inner_cons (n : Nat) (t : Token) (ts : List Token) :
    skipMember (n + 1) (t :: ts) =
      if t.opens then skipMember (n + 2) ts else if t.closes then skipMember n ts
      else skipMember (n + 1) ts := by
  rw [skipMember]
  simp

theorem skipMember_balanced (balanced : Balanced ts) (n : Nat) (behind : List Token) :
    skipMember (n + 1) (ts ++ behind) = skipMember (n + 1) behind := by
  induction balanced generalizing n behind with
  | nil => rfl
  | plain opens closes _ ih => simp [skipMember_inner_cons, opens, closes, ih]
  | group matching _ _ inside ih =>
    have opens := Token.opens_of_isClosedBy matching
    have closes := Token.closes_of_isClosedBy matching
    have unopened := Token.opens_eq_false_of_closes closes
    simp [skipMember_inner_cons, opens, inside, unopened, closes, ih]

end

/-- A token stands outside of brackets, with `after` behind it. -/
def Outside (ts : List Token) (t : Token) (after : List Token) : Prop :=
  ∃ before, ts = before ++ t :: after ∧ Balanced before

/-- No semicolon stands outside of brackets. -/
def Unterminated (ts : List Token) : Prop :=
  ∀ t after, Outside ts t after → t.isPunctuation ";" = false

section

variable {t u o c : Token} {a b ts inner after : List Token}

theorem not_outside_nil : ¬Outside [] u after := by
  rintro ⟨before, shape, -⟩
  simp at shape

theorem outside_plain (opens : t.opens = false) (closes : t.closes = false) :
    Outside (t :: ts) u after ↔ (u = t ∧ after = ts) ∨ Outside ts u after := by
  constructor
  · rintro ⟨before, shape, balanced⟩
    cases balanced with
    | nil =>
      obtain ⟨rfl, rfl⟩ := List.cons.inj shape
      exact .inl ⟨rfl, rfl⟩
    | plain _ _ balanced =>
      obtain ⟨-, rfl⟩ := List.cons.inj shape
      exact .inr ⟨_, rfl, balanced⟩
    | group matching =>
      obtain ⟨rfl, -⟩ := List.cons.inj shape
      rw [Token.opens_of_isClosedBy matching] at opens
      cases opens
  · rintro (⟨rfl, rfl⟩ | ⟨before, rfl, balanced⟩)
    · exact ⟨[], rfl, .nil⟩
    · exact ⟨t :: before, rfl, .plain opens closes balanced⟩

/-- Where a group ends is known from what is in it, so what is outside of it lies behind. -/
theorem outside_group (matching : o.isClosedBy c = true) (balanced : Balanced inner) :
    Outside (o :: (inner ++ c :: ts)) u after ↔
      (u = o ∧ after = inner ++ c :: ts) ∨ Outside ts u after := by
  constructor
  · rintro ⟨before, shape, outside⟩
    cases outside with
    | nil =>
      obtain ⟨rfl, rfl⟩ := List.cons.inj shape
      exact .inl ⟨rfl, rfl⟩
    | plain opens =>
      obtain ⟨rfl, -⟩ := List.cons.inj shape
      rw [Token.opens_of_isClosedBy matching] at opens
      cases opens
    | group matching' balanced' outside =>
      rw [List.cons_append, List.append_assoc, List.cons_append] at shape
      obtain ⟨rfl, same⟩ := List.cons.inj shape
      -- both groups are the tokens up to the bracket that closes the same one
      have closed := skipGroup_closed balanced matching ts
      rw [same, skipGroup_closed balanced' matching'] at closed
      exact .inr ⟨_, closed.symm, outside⟩
  · rintro (⟨rfl, rfl⟩ | ⟨before, rfl, outside⟩)
    · exact ⟨[], rfl, .nil⟩
    · exact ⟨o :: (inner ++ c :: before), by simp, .group matching balanced outside⟩

theorem unterminated_nil : Unterminated [] :=
  fun _ _ outside => absurd outside not_outside_nil

theorem unterminated_plain (opens : t.opens = false) (closes : t.closes = false) :
    Unterminated (t :: ts) ↔ t.isPunctuation ";" = false ∧ Unterminated ts := by
  simp only [Unterminated, outside_plain opens closes]
  constructor
  · exact fun whole => ⟨whole t ts (.inl ⟨rfl, rfl⟩), fun u after outside =>
      whole u after (.inr outside)⟩
  · rintro ⟨first, others⟩ u after (⟨rfl, -⟩ | outside)
    · exact first
    · exact others u after outside

theorem unterminated_group (matching : o.isClosedBy c = true) (balanced : Balanced inner) :
    Unterminated (o :: (inner ++ c :: ts)) ↔ Unterminated ts := by
  simp only [Unterminated, outside_group matching balanced]
  constructor
  · exact fun whole u after outside => whole u after (.inr outside)
  · rintro others u after (⟨rfl, -⟩ | outside)
    · exact (Token.isPunctuation_of_opens (Token.opens_of_isClosedBy matching)).1
    · exact others u after outside

theorem Unterminated.append (balanced : Balanced a) (first : Unterminated a)
    (second : Unterminated b) : Unterminated (a ++ b) := by
  induction balanced with
  | nil => exact second
  | plain opens closes _ ih =>
    obtain ⟨other, first⟩ := (unterminated_plain opens closes).1 first
    exact (unterminated_plain opens closes).2 ⟨other, ih first⟩
  | group matching inside _ _ ih =>
    rw [List.cons_append, List.append_assoc, List.cons_append]
    exact (unterminated_group matching inside).2 (ih ((unterminated_group matching inside).1 first))

end

section

variable {t o c semicolon : Token} {e ts inner rest : List Token}

theorem skipMember_outer_cons (t : Token) (ts : List Token) :
    skipMember 0 (t :: ts) =
      if t.isPunctuation ";" then ts
      else if t.isPunctuation "\x7b" then
        if startsWith ";" (skipGroup 0 ts) || startsWith "=" (skipGroup 0 ts) then
          skipMember 0 (skipGroup 0 ts)
        else skipGroup 0 ts
      else if t.isPunctuation "\x7d" then t :: ts
      else if t.opens then skipMember 1 ts
      else skipMember 0 ts := by
  rw [skipMember]
  simp [skipBalanced]

theorem skipMember_plain (opens : t.opens = false) (closes : t.closes = false)
    (other : t.isPunctuation ";" = false) (behind : List Token) :
    skipMember 0 (t :: behind) = skipMember 0 behind := by
  simp only [Token.opens, Token.closes, Bool.or_eq_false_iff] at opens closes
  simp [skipMember_outer_cons, other, opens, closes, Token.opens]

theorem skipMember_block (matching : o.isClosedBy c = true) (inside : Balanced inner)
    (braces : o.isPunctuation "\x7b" = true) (behind : List Token) :
    skipMember 0 (o :: (inner ++ c :: behind)) =
      if startsWith ";" behind || startsWith "=" behind then skipMember 0 behind else behind := by
  rw [skipMember_outer_cons, if_neg (by simp [Token.isPunctuation_eq_false braces]), if_pos braces,
    skipGroup_closed inside matching]

theorem skipMember_group (matching : o.isClosedBy c = true) (inside : Balanced inner)
    (other : o.isPunctuation "\x7b" = false) (behind : List Token) :
    skipMember 0 (o :: (inner ++ c :: behind)) = skipMember 0 behind := by
  have opens := Token.opens_of_isClosedBy matching
  have closes := Token.closes_of_isClosedBy matching
  have bracket := Token.isPunctuation_of_opens opens
  rw [skipMember_outer_cons, if_neg (by simp [bracket]), if_neg (by simp [other]),
    if_neg (by simp [bracket]), if_pos opens, skipMember_balanced inside, skipMember_inner_cons,
    if_neg (by simp [Token.opens_eq_false_of_closes closes]), if_pos closes]

theorem skipStatement_inner_cons (n : Nat) (t : Token) (ts : List Token) :
    skipStatement (n + 1) (t :: ts) =
      if t.opens then skipStatement (n + 2) ts else if t.closes then skipStatement n ts
      else skipStatement (n + 1) ts := by
  rw [skipStatement]
  simp

theorem skipStatement_balanced (balanced : Balanced ts) (n : Nat) (behind : List Token) :
    skipStatement (n + 1) (ts ++ behind) = skipStatement (n + 1) behind := by
  induction balanced generalizing n behind with
  | nil => rfl
  | plain opens closes _ ih => simp [skipStatement_inner_cons, opens, closes, ih]
  | group matching _ _ inside ih =>
    have opens := Token.opens_of_isClosedBy matching
    have closes := Token.closes_of_isClosedBy matching
    have unopened := Token.opens_eq_false_of_closes closes
    simp [skipStatement_inner_cons, opens, inside, unopened, closes, ih]

theorem skipStatement_plain (opens : t.opens = false) (closes : t.closes = false)
    (other : t.isPunctuation ";" = false) (behind : List Token) :
    skipStatement 0 (t :: behind) = skipStatement 0 behind := by
  simp only [Token.closes, Bool.or_eq_false_iff] at closes
  simp [skipStatement, other, opens, closes, Token.closes]

theorem skipStatement_group (matching : o.isClosedBy c = true) (inside : Balanced inner)
    (behind : List Token) :
    skipStatement 0 (o :: (inner ++ c :: behind)) = skipStatement 0 behind := by
  have opens := Token.opens_of_isClosedBy matching
  have closes := Token.closes_of_isClosedBy matching
  have bracket := Token.isPunctuation_of_opens opens
  rw [skipStatement, if_neg (by simp [bracket]), if_neg (by simp [bracket]), if_pos opens,
    skipStatement_balanced inside, skipStatement_inner_cons,
    if_neg (by simp [Token.opens_eq_false_of_closes closes]), if_pos closes]

/-- A statement reaches to the first semicolon outside of brackets, whatever blocks are in it. -/
theorem skipStatement_unterminated (balanced : Balanced e) (unterminated : Unterminated e)
    (ends : semicolon.isPunctuation ";" = true) :
    skipStatement 0 (e ++ semicolon :: rest) = rest := by
  induction balanced with
  | nil => simp [skipStatement, ends]
  | plain opens closes _ ih =>
    obtain ⟨other, unterminated⟩ := (unterminated_plain opens closes).1 unterminated
    rw [List.cons_append, skipStatement_plain opens closes other, ih unterminated]
  | group matching inside _ _ ih =>
    have unterminated := (unterminated_group matching inside).1 unterminated
    rw [List.cons_append, List.append_assoc, List.cons_append, skipStatement_group matching inside,
      ih unterminated]

end

end ConventionLint.Source
