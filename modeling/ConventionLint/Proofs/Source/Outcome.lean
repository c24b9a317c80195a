import ConventionLint.Proofs.Source.Lexing

/-!
# Outcomes of readers

What a reader makes of tokens that spell something: the thing itself as long as it nests within the
limit, and a fault when it nests deeper. Never is it something shorter. Outcomes compose like the
readers do; the nesting of a sequence is that of its deepest part.
-/
namespace ConventionLint.Source

/-- The tokens start with the given lexemes and go on with `rest`. -/
def Spells (lexemes : List Lexeme) (ts rest : List Token) : Prop :=
  ∃ us, ts = us ++ rest ∧ us.map Token.lexeme = lexemes

section

variable {l : Lexeme} {a b : List Lexeme} {ts rest : List Token}

@[simp] theorem spells_nil : Spells [] ts rest ↔ ts = rest := by
  simp [Spells]

@[simp] theorem spells_cons :
    Spells (l :: a) ts rest ↔ ∃ p us, ts = ⟨l.kind, l.text, p⟩ :: us ∧ Spells a us rest := by
  constructor
  · rintro ⟨_ | ⟨t, us⟩, rfl, spelled⟩
    · cases spelled
    · obtain ⟨rfl, rfl⟩ := List.cons.inj spelled
      exact ⟨t.position, us ++ rest, rfl, us, rfl, rfl⟩
  · rintro ⟨p, us, rfl, vs, rfl, rfl⟩
    exact ⟨⟨l.kind, l.text, p⟩ :: vs, rfl, rfl⟩

theorem spells_append : Spells (a ++ b) ts rest ↔ ∃ mid, Spells a ts mid ∧ Spells b mid rest := by
  constructor
  · rintro ⟨us, rfl, spelled⟩
    obtain ⟨vs, ws, rfl, rfl, rfl⟩ := List.map_eq_append_iff.1 spelled
    exact ⟨ws ++ rest, ⟨vs, by simp, rfl⟩, ws, rfl, rfl⟩
  · rintro ⟨mid, ⟨us, rfl, rfl⟩, vs, rfl, rfl⟩
    exact ⟨us ++ vs, by simp, by simp⟩

end

def startsWithMark (marks : List String) (ts : List Token) : Bool :=
  marks.any (startsWith · ts)

section

variable {text other : String} {p : Position} {us : List Token}

@[simp] theorem isPunctuation_word :
    (Token.mk .identifier text p).isPunctuation other = false := by
  simp [Token.isPunctuation]

@[simp] theorem isPunctuation_mark :
    (Token.mk .punctuation text p).isPunctuation other = decide (text = other) := by
  simp [Token.isPunctuation]

@[simp] theorem isIdentifier_word : (Token.mk .identifier text p).isIdentifier = true := rfl

@[simp] theorem isIdentifier_mark : (Token.mk .punctuation text p).isIdentifier = false := rfl

@[simp] theorem isWord_word : (Token.mk .identifier text p).isWord other = decide (text = other) := by
  simp [Token.isWord]

@[simp] theorem isWord_mark : (Token.mk .punctuation text p).isWord other = false := by
  simp [Token.isWord]

@[simp] theorem startsWith_nil : startsWith text [] = false := rfl

@[simp] theorem startsWith_cons {t : Token} : startsWith text (t :: us) = t.isPunctuation text := rfl

@[simp] theorem startsWithWord_cons {t : Token} :
    startsWithWord text (t :: us) = t.isWord text := rfl

@[simp] theorem startsWithIdentifier_cons {t : Token} :
    startsWithIdentifier (t :: us) = t.isIdentifier := rfl

end

section

variable {text other : String} {more : List Lexeme} {ts rest : List Token}

theorem startsWith_of_spells_mark (spelled : Spells (.mark text :: more) ts rest) :
    startsWith other ts = decide (text = other) := by
  obtain ⟨p, us, rfl, -⟩ := spells_cons.1 spelled
  simp [Lexeme.mark]

theorem startsWith_of_spells_word (spelled : Spells (.word text :: more) ts rest) :
    startsWith other ts = false := by
  obtain ⟨p, us, rfl, -⟩ := spells_cons.1 spelled
  simp [Lexeme.word]

end

/-- A reader reads what is spelled when that nests within the limit, and else finds it too deep. -/
structure Outcome {α : Type} (depth nesting : Nat) (result : Except Fault α) (read : α → Prop) :
    Prop where
  within : depth + nesting ≤ maxNesting → ∃ a, result = .ok a ∧ read a
  beyond : maxNesting < depth + nesting →
    ∃ fault, result = .error fault ∧ fault.cause = .nestedTooDeeply

namespace Outcome

variable {α β : Type} {depth m n : Nat} {result : Except Fault α} {P : α → Prop} {Q : β → Prop}

theorem ok {a : α} (shallow : depth ≤ maxNesting) (read : P a) : Outcome depth 0 (.ok a) P :=
  ⟨fun _ => ⟨a, rfl, read⟩, fun deep => absurd shallow (Nat.not_le.2 deep)⟩

theorem mono {R : α → Prop} (h : Outcome depth n result P) (weaker : ∀ a, P a → R a) :
    Outcome depth n result R := by
  refine ⟨fun shallow => ?_, h.beyond⟩
  obtain ⟨a, run, read⟩ := h.within shallow
  exact ⟨a, run, weaker a read⟩

theorem bind {f : α → Except Fault β} (first : Outcome depth m result P)
    (next : ∀ a, P a → Outcome depth n (f a) Q) : Outcome depth (max m n) (result >>= f) Q := by
  by_cases shallow : depth + m ≤ maxNesting
  · obtain ⟨a, rfl, read⟩ := first.within shallow
    have next := next a read
    refine ⟨fun both => next.within (by omega), fun deep => next.beyond (by omega)⟩
  · obtain ⟨fault, rfl, cause⟩ := first.beyond (by omega)
    exact ⟨fun both => by omega, fun _ => ⟨fault, rfl, cause⟩⟩

/-- What only puts a result in another form nests nothing. -/
theorem map {f : α → Except Fault β} (shallow : depth ≤ maxNesting)
    (first : Outcome depth n result P) (next : ∀ a, P a → ∃ b, f a = .ok b ∧ Q b) :
    Outcome depth n (result >>= f) Q := by
  have whole : Outcome depth (max n 0) (result >>= f) Q := by
    refine first.bind fun a read => ?_
    obtain ⟨b, run, made⟩ := next a read
    exact run ▸ .ok shallow made
  rwa [Nat.max_zero] at whole

/-- One level further in. -/
theorem enter {f : Nat → Except Fault β} {ts : List Token} (shallow : depth ≤ maxNesting)
    (inside : depth < maxNesting → Outcome (depth + 1) n (f (depth + 1)) Q) :
    Outcome depth (n + 1) (Source.enter depth ts >>= f) Q := by
  by_cases full : maxNesting ≤ depth
  · refine ⟨fun _ => by omega, fun _ => ?_⟩
    cases ts with
    | nil => exact ⟨_, by rw [Source.enter, if_pos full]; rfl, rfl⟩
    | cons t ts => exact ⟨_, by rw [Source.enter, if_pos full]; rfl, rfl⟩
  · have inside := inside (by omega)
    have entered : Source.enter depth ts = .ok (depth + 1) := by rw [Source.enter.eq_def, if_neg full]
    rw [entered]
    exact ⟨fun _ => inside.within (by omega), fun _ => inside.beyond (by omega)⟩

end Outcome

end ConventionLint.Source
