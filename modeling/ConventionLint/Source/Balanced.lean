import ConventionLint.Source.Token

/-!
# Skipping over tokens

Bodies, initialisers and argument lists are passed over by counting brackets. Every function here
returns the tokens that are left, an end of those it was given.
-/
namespace ConventionLint.Source

namespace Token

def opens (t : Token) : Bool :=
  t.isPunctuation "(" || t.isPunctuation "[" || t.isPunctuation "\x7b"

def closes (t : Token) : Bool :=
  t.isPunctuation ")" || t.isPunctuation "]" || t.isPunctuation "\x7d"

end Token

/-- Whether the tokens start with the given punctuation. -/
def startsWith (text : String) (ts : List Token) : Bool :=
  ts.head?.any (·.isPunctuation text)

def startsWithWord (text : String) (ts : List Token) : Bool :=
  ts.head?.any (·.isWord text)

def startsWithIdentifier (ts : List Token) : Bool :=
  ts.head?.any (·.isIdentifier)

/-- Drops one token when it is the given punctuation. -/
def skipOne (text : String) (ts : List Token) : List Token :=
  if startsWith text ts then ts.tail else ts

/-- The tokens behind the bracket that closes a group, `inner` further groups being open in it. -/
def skipGroup (inner : Nat) : List Token → List Token
  | [] => []
  | t :: ts =>
    if t.opens then skipGroup (inner + 1) ts
    else if t.closes then
      match inner with
      | 0 => ts
      | n + 1 => skipGroup n ts
    else skipGroup inner ts

/-- The tokens behind the bracketed group that the first token opens. -/
def skipBalanced (ts : List Token) : List Token :=
  skipGroup 0 ts.tail

/-- The tokens behind the next semicolon outside brackets, or from the brace that ends the
surrounding body. -/
def skipStatement (inner : Nat) : List Token → List Token
  | [] => []
  | t :: ts =>
    if inner = 0 && t.isPunctuation ";" then ts
    else if inner = 0 && t.isPunctuation "\x7d" then t :: ts
    else if t.opens then skipStatement (inner + 1) ts
    else if t.closes then skipStatement (inner - 1) ts
    else skipStatement inner ts

/-- The tokens behind a list in angle brackets, or from the brace or semicolon that cuts it off. -/
def skipAngles (inner : Nat) : List Token → List Token
  | [] => []
  | t :: ts =>
    if t.isPunctuation "<" then skipAngles (inner + 1) ts
    else if t.isPunctuation ">" then
      if inner ≤ 1 then ts else skipAngles (inner - 1) ts
    else if t.isPunctuation "\x7b" || t.isPunctuation ";" then t :: ts
    else skipAngles inner ts

theorem cons_suffix {t : Token} {ts rest : List Token} (h : rest <:+ ts) : rest <:+ t :: ts :=
  h.trans (List.suffix_cons t ts)

theorem skipGroup_suffix (inner : Nat) (ts : List Token) : skipGroup inner ts <:+ ts := by
  induction ts generalizing inner with
  | nil => exact List.suffix_rfl
  | cons t ts ih =>
    unfold skipGroup
    split
    · exact cons_suffix (ih _)
    · split
      · cases inner with
        | zero => exact List.suffix_cons t ts
        | succ n => exact cons_suffix (ih n)
      · exact cons_suffix (ih _)

theorem skipBalanced_suffix (ts : List Token) : skipBalanced ts <:+ ts :=
  (skipGroup_suffix 0 ts.tail).trans (List.tail_suffix ts)

theorem skipBalanced_length (ts : List Token) :
    (skipBalanced ts).length ≤ ts.length - 1 := by
  have := (skipGroup_suffix 0 ts.tail).length_le
  rwa [List.length_tail] at this

theorem skipBalanced_cons_length (t : Token) (ts : List Token) :
    (skipBalanced (t :: ts)).length ≤ ts.length :=
  (skipGroup_suffix 0 ts).length_le

theorem skipStatement_suffix (inner : Nat) (ts : List Token) : skipStatement inner ts <:+ ts := by
  induction ts generalizing inner with
  | nil => exact List.suffix_rfl
  | cons t ts ih =>
    rw [skipStatement]
    repeat' split
    all_goals first
      | exact cons_suffix (ih _)
      | exact List.suffix_cons t ts
      | exact List.suffix_rfl

theorem skipAngles_suffix (inner : Nat) (ts : List Token) : skipAngles inner ts <:+ ts := by
  induction ts generalizing inner with
  | nil => exact List.suffix_rfl
  | cons t ts ih =>
    rw [skipAngles]
    repeat' split
    all_goals first
      | exact cons_suffix (ih _)
      | exact List.suffix_cons t ts
      | exact List.suffix_rfl

theorem skipAngles_length (inner : Nat) (ts : List Token) :
    (skipAngles inner ts).length ≤ ts.length :=
  (skipAngles_suffix ..).length_le

theorem skipOne_suffix (text : String) (ts : List Token) : skipOne text ts <:+ ts := by
  rw [skipOne]
  split
  · exact List.tail_suffix ts
  · exact List.suffix_rfl

theorem skipOne_length (text : String) (ts : List Token) :
    (skipOne text ts).length ≤ ts.length :=
  (skipOne_suffix ..).length_le

theorem length_pos_of_startsWith {text : String} {ts : List Token} (h : startsWith text ts = true) :
    0 < ts.length := by
  cases ts with
  | nil => simp [startsWith] at h
  | cons t ts => simp

theorem tail_length (ts : List Token) : ts.tail.length ≤ ts.length := by
  simp

theorem tail_shorter {text : String} {ts : List Token} (h : startsWith text ts = true) :
    ts.tail.length < ts.length := by
  have := length_pos_of_startsWith h
  simp only [List.length_tail]
  omega

theorem length_of_eq_cons {t : Token} {ts us : List Token} {n : Nat} (shape : us = t :: ts)
    (h : us.length ≤ n + 1) : ts.length ≤ n := by
  subst shape
  exact Nat.le_of_succ_le_succ h

theorem length_of_eq_cons_cons {t u : Token} {ts us : List Token} {n : Nat}
    (shape : us = t :: u :: ts) (h : us.length ≤ n) : ts.length < n := by
  subst shape
  exact Nat.lt_of_succ_le (Nat.le_of_succ_le h)

/-- The tokens behind a member or statement: a semicolon outside brackets ends it, and so does a
block, unless a semicolon or an equals sign follows the block. The brace that ends the surrounding
body is left. -/
def skipMember (inner : Nat) (ts : List Token) : List Token :=
  match ts with
  | [] => []
  | t :: rest =>
    if inner = 0 && t.isPunctuation ";" then rest
    else if inner = 0 && t.isPunctuation "\x7b" then
      let behind := skipBalanced (t :: rest)
      if startsWith ";" behind || startsWith "=" behind then skipMember 0 behind else behind
    else if inner = 0 && t.isPunctuation "\x7d" then t :: rest
    else if t.opens then skipMember (inner + 1) rest
    else if t.closes then skipMember (inner - 1) rest
    else skipMember inner rest
termination_by ts.length
decreasing_by
  · have := skipBalanced_length (t :: rest)
    simp at this ⊢
    omega
  all_goals simp

theorem skipMember_suffix (inner : Nat) (ts : List Token) : skipMember inner ts <:+ ts := by
  fun_induction skipMember inner ts with
  | case1 => exact List.suffix_rfl
  | case2 => exact List.suffix_cons _ _
  | case3 inner t rest _ _ behind _ ih => exact ih.trans (skipBalanced_suffix (t :: rest))
  | case4 inner t rest => exact skipBalanced_suffix (t :: rest)
  | case5 => exact List.suffix_rfl
  | case6 _ _ _ _ _ _ _ ih => exact cons_suffix ih
  | case7 _ _ _ _ _ _ _ _ ih => exact cons_suffix ih
  | case8 _ _ _ _ _ _ _ _ ih => exact cons_suffix ih

theorem skipMember_length (inner : Nat) (ts : List Token) :
    (skipMember inner ts).length ≤ ts.length :=
  (skipMember_suffix ..).length_le

/-- Something is skipped unless the surrounding body ends at once. -/
theorem skipMember_shorter {t : Token} (ts : List Token) (h : t.isPunctuation "\x7d" = false) :
    (skipMember 0 (t :: ts)).length ≤ ts.length := by
  unfold skipMember
  have grouped := skipBalanced_length (t :: ts)
  simp only [List.length_cons, Nat.add_sub_cancel] at grouped
  simp only [h, decide_true, Bool.true_and, Bool.false_eq_true, ↓reduceIte]
  repeat' split
  all_goals first
    | exact Nat.le_refl _
    | exact skipMember_length _ _
    | exact Nat.le_trans (skipMember_length _ _) grouped
    | exact grouped

end ConventionLint.Source
