import ConventionLint.Proofs.Source.Leftover
import Mathlib.Tactic.SplitIfs

/-!
# Loops over tokens

The functions that skip tokens, or read what does not nest, are loops. A loop is given by one turn;
that a turn which goes on takes a token is part of it, so that it can be run. Each of the functions
is the run of its loop.
-/
namespace ConventionLint.Source

/-- What a turn comes to: the loop is left with a result, or goes on in a state. -/
inductive Turned (σ ρ : Type) where
  | leave (result : ρ) (rest : List Token)
  | again (state : σ) (rest : List Token)

/-- A loop over tokens: its result where no tokens are left, and its turn at a token. -/
structure TokenLoop (σ ρ : Type) where
  atEnd : σ → ρ
  turn : σ → Token → List Token → Turned σ ρ
  shorter {s s' : σ} {t : Token} {rest left : List Token} :
    turn s t rest = .again s' left → left.length ≤ rest.length

namespace TokenLoop

variable {σ ρ : Type}

def run (loop : TokenLoop σ ρ) (s : σ) (ts : List Token) : ρ × List Token :=
  match ts with
  | [] => (loop.atEnd s, [])
  | t :: rest =>
    match taken : loop.turn s t rest with
    | .leave result left => (result, left)
    | .again s' left =>
      have : left.length ≤ rest.length := loop.shorter taken
      loop.run s' left
termination_by ts.length

/-- What goes on as the turns say is the run. -/
theorem eq_run (loop : TokenLoop σ ρ) {f : σ → List Token → ρ × List Token}
    (nil : ∀ s, f s [] = (loop.atEnd s, []))
    (cons : ∀ s t rest, f s (t :: rest) =
      match loop.turn s t rest with
      | .leave result left => (result, left)
      | .again s' left => f s' left) (s : σ) (ts : List Token) : f s ts = loop.run s ts := by
  induction size : ts.length using Nat.strongRecOn generalizing s ts with
  | ind n ih =>
    cases ts with
    | nil => rw [nil, run]
    | cons t rest =>
      rw [run]
      split
      · next taken => rw [cons, taken]
      · next s' left taken =>
        have fewer : left.length < n := size ▸ Nat.lt_succ_of_le (loop.shorter taken)
        have further := cons s t rest
        rw [taken] at further
        exact further.trans (ih _ fewer s' left rfl)

end TokenLoop

def groupLoop : TokenLoop Nat Unit where
  atEnd _ := ()
  turn inner t rest :=
    if t.opens then .again (inner + 1) rest
    else if t.closes then
      if inner = 0 then .leave () rest else .again (inner - 1) rest
    else .again inner rest
  shorter taken := by
    split_ifs at taken
    all_goals cases taken
    all_goals exact Nat.le_refl _

theorem skipGroup_eq_run (inner : Nat) (ts : List Token) :
    skipGroup inner ts = (groupLoop.run inner ts).2 := by
  refine congrArg Prod.snd (groupLoop.eq_run (f := fun inner ts => ((), skipGroup inner ts))
    (fun _ => rfl) (fun inner t rest => ?_) inner ts)
  rw [skipGroup.eq_def]
  cases inner with
  | zero =>
    simp only [groupLoop, ↓reduceIte]
    split_ifs <;> rfl
  | succ n =>
    simp only [groupLoop, Nat.succ_ne_zero, ↓reduceIte]
    split_ifs <;> rfl

def statementLoop : TokenLoop Nat Unit where
  atEnd _ := ()
  turn inner t rest :=
    if inner = 0 && t.isPunctuation ";" then .leave () rest
    else if inner = 0 && t.isPunctuation "\x7d" then .leave () (t :: rest)
    else if t.opens then .again (inner + 1) rest
    else if t.closes then .again (inner - 1) rest
    else .again inner rest
  shorter taken := by
    split_ifs at taken
    all_goals cases taken
    all_goals exact Nat.le_refl _

theorem skipStatement_eq_run (inner : Nat) (ts : List Token) :
    skipStatement inner ts = (statementLoop.run inner ts).2 := by
  refine congrArg Prod.snd (statementLoop.eq_run
    (f := fun inner ts => ((), skipStatement inner ts)) (fun _ => rfl)
    (fun inner t rest => ?_) inner ts)
  simp only [skipStatement, statementLoop]
  split_ifs <;> rfl

def anglesLoop : TokenLoop Nat Unit where
  atEnd _ := ()
  turn inner t rest :=
    if t.isPunctuation "<" then .again (inner + 1) rest
    else if t.isPunctuation ">" then
      if inner ≤ 1 then .leave () rest else .again (inner - 1) rest
    else if t.isPunctuation "\x7b" || t.isPunctuation ";" then .leave () (t :: rest)
    else .again inner rest
  shorter taken := by
    split_ifs at taken
    all_goals cases taken
    all_goals exact Nat.le_refl _

theorem skipAngles_eq_run (inner : Nat) (ts : List Token) :
    skipAngles inner ts = (anglesLoop.run inner ts).2 := by
  refine congrArg Prod.snd (anglesLoop.eq_run (f := fun inner ts => ((), skipAngles inner ts))
    (fun _ => rfl) (fun inner t rest => ?_) inner ts)
  simp only [skipAngles, anglesLoop]
  split_ifs <;> rfl

/-- To the end of a member. A turn takes a whole block. -/
def memberLoop : TokenLoop Nat Unit where
  atEnd _ := ()
  turn inner t rest :=
    if inner = 0 && t.isPunctuation ";" then .leave () rest
    else if inner = 0 && t.isPunctuation "\x7b" then
      if startsWith ";" (skipBalanced (t :: rest)) || startsWith "=" (skipBalanced (t :: rest)) then
        .again 0 (skipBalanced (t :: rest))
      else .leave () (skipBalanced (t :: rest))
    else if inner = 0 && t.isPunctuation "\x7d" then .leave () (t :: rest)
    else if t.opens then .again (inner + 1) rest
    else if t.closes then .again (inner - 1) rest
    else .again inner rest
  shorter {_ _ t rest _} taken := by
    have grouped := skipBalanced_cons_length t rest
    split_ifs at taken
    all_goals cases taken
    all_goals first | exact Nat.le_refl _ | exact grouped

theorem skipMember_eq_run (inner : Nat) (ts : List Token) :
    skipMember inner ts = (memberLoop.run inner ts).2 := by
  refine congrArg Prod.snd (memberLoop.eq_run (f := fun inner ts => ((), skipMember inner ts))
    (fun _ => by rw [skipMember]) (fun inner t rest => ?_) inner ts)
  simp only [skipMember, memberLoop]
  split_ifs <;> rfl

/-- Behind the suffixes of a type. A turn takes a whole array rank. -/
def suffixesLoop : TokenLoop Unit Unit where
  atEnd _ := ()
  turn _ t rest :=
    if t.isPunctuation "?" || t.isPunctuation "*" then .again () rest
    else if t.isPunctuation "[" && (startsWith "]" rest || startsWith "," rest) then
      .again () (skipBalanced (t :: rest))
    else .leave () (t :: rest)
  shorter {_ _ t rest _} taken := by
    have grouped := skipBalanced_cons_length t rest
    split_ifs at taken
    all_goals cases taken
    all_goals first | exact Nat.le_refl _ | exact grouped

theorem skipSuffixes_eq_run (ts : List Token) : skipSuffixes ts = (suffixesLoop.run () ts).2 := by
  refine congrArg Prod.snd (suffixesLoop.eq_run (f := fun _ ts => ((), skipSuffixes ts))
    (fun _ => by rw [skipSuffixes]) (fun _ t rest => ?_) () ts)
  simp only [skipSuffixes, suffixesLoop]
  split_ifs <;> rfl

def headLoop : TokenLoop Unit Unit where
  atEnd _ := ()
  turn _ t rest := if endsHead t then .leave () (t :: rest) else .again () rest
  shorter taken := by
    split_ifs at taken
    cases taken
    exact Nat.le_refl _

theorem dropWhile_eq_run (ts : List Token) :
    ts.dropWhile (!endsHead ·) = (headLoop.run () ts).2 := by
  refine congrArg Prod.snd (headLoop.eq_run
    (f := fun _ ts => ((), ts.dropWhile (!endsHead ·))) (fun _ => rfl) (fun _ t rest => ?_) () ts)
  simp only [headLoop, List.dropWhile]
  cases endsHead t <;> rfl

/-- The segments of a dotted name, read so far last first. -/
def dottedLoop : TokenLoop (List String) (List String) where
  atEnd found := found.reverse
  turn found t rest :=
    if t.isIdentifier then
      match rest with
      | dot :: next :: more =>
        if dot.isPunctuation "." && next.isIdentifier then .again (t.text :: found) (next :: more)
        else .leave (t.text :: found).reverse rest
      | _ => .leave (t.text :: found).reverse rest
    else .leave found.reverse (t :: rest)
  shorter taken := by
    split at taken
    · split at taken
      · split at taken
        · cases taken
          exact Nat.le_succ _
        · cases taken
      · cases taken
    · cases taken

theorem readDotted_eq_run (found : List String) (ts : List Token) :
    (found.reverse ++ (readDotted ts).1, (readDotted ts).2) = dottedLoop.run found ts := by
  refine dottedLoop.eq_run
    (f := fun found ts => (found.reverse ++ (readDotted ts).1, (readDotted ts).2))
    (fun found => ?_) (fun found t rest => ?_) found ts
  · simp [readDotted, dottedLoop]
  · match rest with
    | [] =>
      simp only [readDotted, dottedLoop]
      split_ifs <;> simp
    | [dot] =>
      simp only [readDotted, dottedLoop]
      split_ifs <;> simp
    | dot :: next :: more =>
      simp only [readDotted, dottedLoop]
      split_ifs <;> simp

/-- Modifiers, read so far last first. -/
def modifiersLoop : TokenLoop (List String) (List String) where
  atEnd found := found.reverse
  turn found t rest :=
    if t.isIdentifier && modifierWords.contains t.text && !endsModifiers t.text rest then
      .again (t.text :: found) rest
    else .leave found.reverse (t :: rest)
  shorter taken := by
    split_ifs at taken
    cases taken
    exact Nat.le_refl _

theorem readModifiers_eq_run (found : List String) (ts : List Token) :
    (found.reverse ++ (readModifiers ts).1, (readModifiers ts).2) = modifiersLoop.run found ts := by
  refine modifiersLoop.eq_run
    (f := fun found ts => (found.reverse ++ (readModifiers ts).1, (readModifiers ts).2))
    (fun found => ?_) (fun found t rest => ?_) found ts
  · simp [readModifiers, modifiersLoop]
  · simp only [readModifiers, modifiersLoop]
    split_ifs <;> simp

def typeParametersLoop : TokenLoop (List String) (List String) where
  atEnd found := found.reverse
  turn found t rest :=
    if t.isPunctuation ">" then .leave found.reverse rest
    else if t.isPunctuation "[" then .again found (skipBalanced (t :: rest))
    else if t.isIdentifier && !t.isWord "in" && !t.isWord "out" then .again (t.text :: found) rest
    else .again found rest
  shorter {_ _ t rest _} taken := by
    have grouped := skipBalanced_cons_length t rest
    split_ifs at taken
    all_goals cases taken
    all_goals first | exact Nat.le_refl _ | exact grouped

theorem readTypeParameters_eq_run (found : List String) (ts : List Token) :
    readTypeParameters found ts = typeParametersLoop.run found ts := by
  refine typeParametersLoop.eq_run (fun found => by rw [readTypeParameters]; rfl)
    (fun found t rest => ?_) found ts
  simp only [readTypeParameters, typeParametersLoop]
  split_ifs <;> rfl

/-- Accessors of a property. A turn takes attributes, or an accessor and its body. -/
def accessorsLoop (property : Accessibility) : TokenLoop Accessors Accessors where
  atEnd found := found
  turn found t rest :=
    if t.isPunctuation "\x7d" then .leave found rest
    else if t.isPunctuation "[" then .again found (skipBalanced (t :: rest))
    else
      match (readModifiers (t :: rest)).2 with
      | [] => .leave found []
      | keyword :: body =>
        if keyword.isIdentifier then
          .again (found.add keyword.text
            ((Accessibility.ofModifiers (readModifiers (t :: rest)).1).getD property)
            (skipAccessorBody body).1) (skipAccessorBody body).2
        else .again found body
  shorter {_ _ t rest _} taken := by
    have grouped := skipBalanced_cons_length t rest
    split at taken
    · cases taken
    · split at taken
      · cases taken
        exact grouped
      · split at taken
        · cases taken
        · next keyword body behind =>
          have body_length : body.length ≤ rest.length := readModifiers_cons_length behind
          split at taken
          · cases taken
            exact Nat.le_trans (skipAccessorBody_length body) body_length
          · cases taken
            exact body_length

theorem readAccessors_eq_run (property : Accessibility) (found : Accessors) (ts : List Token) :
    readAccessors property found ts = (accessorsLoop property).run found ts := by
  refine (accessorsLoop property).eq_run (fun found => by rw [readAccessors]; rfl)
    (fun found t rest => ?_) found ts
  rw [readAccessors_cons]
  simp only [accessorsLoop]
  split
  · rfl
  · split
    · rfl
    · cases (readModifiers (t :: rest)).2 with
      | nil => rfl
      | cons keyword body =>
        dsimp only
        split <;> rfl

/-- The declarators of a field behind its first name, read so far last first, in so many
brackets. -/
def declaratorsLoop : TokenLoop (Nat × List Token) (List Token) where
  atEnd s := s.2.reverse
  turn s t rest :=
    if s.1 = 0 && t.isPunctuation ";" then .leave s.2.reverse rest
    else if s.1 = 0 && t.isPunctuation "\x7d" then .leave s.2.reverse (t :: rest)
    else if s.1 = 0 && t.isPunctuation "," then
      if startsDeclarator rest then .again (0, rest.head?.toList ++ s.2) rest.tail
      else .again (0, s.2) rest
    else if t.opens then .again (s.1 + 1, s.2) rest
    else if t.closes then .again (s.1 - 1, s.2) rest
    else .again s rest
  shorter {_ _ _ rest _} taken := by
    split_ifs at taken
    all_goals cases taken
    all_goals first | exact Nat.le_refl _ | exact tail_length rest

theorem readDeclarators_eq_run (inner : Nat) (found : List Token) (ts : List Token) :
    readDeclarators inner found ts = declaratorsLoop.run (inner, found) ts := by
  have ended (inner : Nat) (found : List Token) :
      readDeclarators inner found [] = (found.reverse, []) := by rw [readDeclarators]
  refine declaratorsLoop.eq_run (f := fun s ts => readDeclarators s.1 s.2 ts)
    (fun _ => ended ..) (fun s t rest => ?_) (inner, found) ts
  rw [readDeclarators.eq_def]
  cases rest with
  | nil =>
    simp only [declaratorsLoop, startsDeclarator, Bool.false_eq_true, ↓reduceIte]
    split_ifs <;> simp only [ended]
  | cons name behind =>
    simp only [declaratorsLoop]
    split_ifs <;> rfl

/-- The segments of a member name. A turn takes a segment and what stands before it. -/
def memberNameLoop : TokenLoop Token (Token × Bool) where
  atEnd name := (name, false)
  turn name t rest :=
    match if startsWith "<" (t :: rest) then skipAngles 0 (t :: rest) else t :: rest with
    | dot :: next :: more =>
      if dot.isPunctuation "." && next.isIdentifier then .again next more
      else .leave (name, startsWith "<" (t :: rest) && !dot.isPunctuation ".") (dot :: next :: more)
    | left => .leave (name, startsWith "<" (t :: rest) && !startsWith "." left) left
  shorter {_ _ t rest _} taken := by
    have behind_length := (nameArguments_suffix (t :: rest)).length_le
    split at taken
    · next shape =>
      rw [shape] at behind_length
      split_ifs at taken
      cases taken
      exact Nat.le_of_succ_le (Nat.le_of_succ_le_succ behind_length)
    · cases taken

theorem readMemberName_eq_run (name : Token) (ts : List Token) :
    (((readMemberName name ts).1, (readMemberName name ts).2.1), (readMemberName name ts).2.2)
      = memberNameLoop.run name ts := by
  refine memberNameLoop.eq_run (f := fun name ts =>
      (((readMemberName name ts).1, (readMemberName name ts).2.1), (readMemberName name ts).2.2))
    (fun name => by rw [readMemberName_eq]; rfl) (fun name t rest => ?_) name ts
  rw [readMemberName_eq]
  simp only [memberNameLoop]
  generalize (if startsWith "<" (t :: rest) then skipAngles 0 (t :: rest) else t :: rest) = behind
  obtain _ | ⟨dot, _ | ⟨next, more⟩⟩ := behind
  · rfl
  · rfl
  · dsimp only
    split_ifs <;> rfl

/-- Whatever skips tokens, or reads what does not nest, does so by turns that leave the loop or take
tokens. -/
structure RunByTurns : Prop where
  group (inner : Nat) (ts : List Token) : skipGroup inner ts = (groupLoop.run inner ts).2
  statement (inner : Nat) (ts : List Token) :
    skipStatement inner ts = (statementLoop.run inner ts).2
  angles (inner : Nat) (ts : List Token) : skipAngles inner ts = (anglesLoop.run inner ts).2
  member (inner : Nat) (ts : List Token) : skipMember inner ts = (memberLoop.run inner ts).2
  suffixes (ts : List Token) : skipSuffixes ts = (suffixesLoop.run () ts).2
  head (ts : List Token) : ts.dropWhile (!endsHead ·) = (headLoop.run () ts).2
  dotted (ts : List Token) : readDotted ts = dottedLoop.run [] ts
  modifiers (ts : List Token) : readModifiers ts = modifiersLoop.run [] ts
  typeParameters (found : List String) (ts : List Token) :
    readTypeParameters found ts = typeParametersLoop.run found ts
  accessors (property : Accessibility) (found : Accessors) (ts : List Token) :
    readAccessors property found ts = (accessorsLoop property).run found ts
  declarators (inner : Nat) (found ts : List Token) :
    readDeclarators inner found ts = declaratorsLoop.run (inner, found) ts
  memberName (name : Token) (ts : List Token) :
    (((readMemberName name ts).1, (readMemberName name ts).2.1), (readMemberName name ts).2.2)
      = memberNameLoop.run name ts

theorem runByTurns : RunByTurns where
  group := skipGroup_eq_run
  statement := skipStatement_eq_run
  angles := skipAngles_eq_run
  member := skipMember_eq_run
  suffixes := skipSuffixes_eq_run
  head := dropWhile_eq_run
  dotted := readDotted_eq_run []
  modifiers := readModifiers_eq_run []
  typeParameters := readTypeParameters_eq_run
  accessors := readAccessors_eq_run
  declarators := readDeclarators_eq_run
  memberName := readMemberName_eq_run

end ConventionLint.Source
