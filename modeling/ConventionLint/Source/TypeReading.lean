import ConventionLint.Source.Balanced
import ConventionLint.Source.Declaration

/-!
# Reading types

A type is read from the front of the tokens. Type arguments nest, and nesting is limited: what
would be the level after the last one is a fault.
-/
namespace ConventionLint.Source

/-- Namespaces, type bodies and type arguments nest this deep at most. -/
def maxNesting : Nat := 128

/-- One level further in, when there is one. The fault is placed at the next token. -/
def enter (depth : Nat) (ts : List Token) : Except Fault Nat :=
  if maxNesting ≤ depth then
    match ts with
    | [] => .error ⟨.nestedTooDeeply, 0, 0⟩
    | t :: _ => .error ⟨.nestedTooDeeply, t.position.line, t.position.column⟩
  else .ok (depth + 1)

/-- Question marks, stars and array ranks behind a type. -/
def skipSuffixes (ts : List Token) : List Token :=
  match ts with
  | [] => []
  | t :: rest =>
    if t.isPunctuation "?" || t.isPunctuation "*" then skipSuffixes rest
    else if t.isPunctuation "[" && (startsWith "]" rest || startsWith "," rest) then
      skipSuffixes (skipBalanced (t :: rest))
    else t :: rest
termination_by ts.length
decreasing_by
  · simp
  · have := skipBalanced_length (t :: rest)
    simp at this ⊢
    omega

theorem skipSuffixes_suffix (ts : List Token) : skipSuffixes ts <:+ ts := by
  fun_induction skipSuffixes ts with
  | case1 => exact List.suffix_rfl
  | case2 _ _ _ ih => exact cons_suffix ih
  | case3 t rest _ _ ih => exact ih.trans (skipBalanced_suffix (t :: rest))
  | case4 => exact List.suffix_rfl

theorem skipSuffixes_length (ts : List Token) : (skipSuffixes ts).length ≤ ts.length :=
  (skipSuffixes_suffix ..).length_le

theorem skipTuple_shorter {ts : List Token} (h : startsWith "(" ts = true) :
    (skipSuffixes (skipBalanced ts)).length < ts.length := by
  have := skipSuffixes_length (skipBalanced ts)
  have := skipBalanced_length ts
  have := length_pos_of_startsWith h
  omega

/-- Drops `global ::`. -/
def skipGlobal (ts : List Token) : List Token :=
  if startsWithWord "global" ts && startsWith "::" ts.tail then ts.tail.tail else ts

theorem skipGlobal_suffix (ts : List Token) : skipGlobal ts <:+ ts := by
  rw [skipGlobal]
  split
  · exact (List.tail_suffix _).trans (List.tail_suffix ts)
  · exact List.suffix_rfl

theorem skipGlobal_length (ts : List Token) : (skipGlobal ts).length ≤ ts.length :=
  (skipGlobal_suffix ..).length_le

theorem skipGlobal_shorter {t : Token} {ts rest : List Token} (h : skipGlobal ts = t :: rest) :
    rest.length < ts.length := by
  have := skipGlobal_length ts
  simp only [h, List.length_cons] at this
  omega

/-- The dotted name that segments (last first) and arguments make up. -/
def writtenType (segments : List String) (arguments : List WrittenType) : WrittenType :=
  match segments with
  | [] => ⟨none, "", arguments⟩
  | [name] => ⟨none, name, arguments⟩
  | name :: qualifier => ⟨some (".".intercalate qualifier.reverse), name, arguments⟩

/-- What a reader found and the tokens it left. -/
structure Reading (α : Type) (ts : List Token) where
  value : α
  rest : List Token
  bound : rest.length ≤ ts.length

/-- A type that may have been there; when it was, tokens were taken. -/
structure TypeReading (ts : List Token) where
  type? : Option WrittenType
  rest : List Token
  bound : rest.length ≤ ts.length
  shorter : type?.isSome → rest.length < ts.length

namespace Reading

variable {α : Type} {ts : List Token}

/-- The same reading for tokens that these are the end of. -/
def lift {us : List Token} (r : Reading α us) (h : us.length ≤ ts.length) : Reading α ts :=
  ⟨r.value, r.rest, Nat.le_trans r.bound h⟩

end Reading

namespace TypeReading

variable {t : Token} {ts : List Token}

theorem rest_shorter {type : WrittenType} (r : TypeReading (t :: ts)) (h : r.type? = some type) :
    r.rest.length < ts.length + 1 :=
  r.shorter (h ▸ rfl)

theorem tail_bound (r : TypeReading (t :: ts)) : r.rest.tail.length ≤ ts.length := by
  have := r.bound
  simp only [List.length_cons] at this
  simp only [List.length_tail]
  omega

end TypeReading

mutual

/-- Reads a type, when the tokens start with one. A tuple counts as `ValueTuple`. -/
def readType (depth : Nat) (ts : List Token) : Except Fault (TypeReading ts) :=
  if tuple : startsWith "(" ts then
    have bound : (skipSuffixes (skipBalanced ts)).length < ts.length := skipTuple_shorter tuple
    .ok ⟨some (.simple "ValueTuple"), skipSuffixes (skipBalanced ts), Nat.le_of_lt bound,
      fun _ => bound⟩
  else
    match named : skipGlobal ts with
    | [] => .ok ⟨none, [], Nat.zero_le _, nofun⟩
    | t :: rest =>
      have bound : rest.length < ts.length := skipGlobal_shorter named
      if t.isIdentifier then do
        let read ← readSegments depth [t.text] [] rest
        return ⟨some read.value, read.rest, Nat.le_trans read.bound (Nat.le_of_lt bound),
          fun _ => Nat.lt_of_le_of_lt read.bound bound⟩
      else .ok ⟨none, t :: rest, bound, nofun⟩
termination_by 2 * ts.length

/-- Reads on behind a segment of a dotted type, `segments` (last first) and the arguments of the
last one being read. A double colon starts the name anew. -/
def readSegments (depth : Nat) (segments : List String) (arguments : List WrittenType)
    (ts : List Token) : Except Fault (Reading WrittenType ts) := do
  let listed : Reading (List WrittenType) ts ←
    if opened : startsWith "<" ts then do
      have shorter : ts.tail.length < ts.length := tail_shorter opened
      let inner ← enter depth ts
      let read ← readArguments inner [] ts.tail
      pure (read.lift (Nat.le_of_lt shorter))
    else pure ⟨arguments, ts, Nat.le_refl _⟩
  match behind : listed.rest with
  | separator :: name :: rest =>
    have shorter : rest.length < ts.length := length_of_eq_cons_cons behind listed.bound
    if separator.isPunctuation "::" && name.isIdentifier then
      return (← readSegments depth [name.text] listed.value rest).lift (Nat.le_of_lt shorter)
    else if separator.isPunctuation "." && name.isIdentifier then
      return (← readSegments depth (name.text :: segments) [] rest).lift (Nat.le_of_lt shorter)
    else
      return ⟨writtenType segments listed.value, skipSuffixes listed.rest,
        Nat.le_trans (skipSuffixes_length _) listed.bound⟩
  | _ =>
    return ⟨writtenType segments listed.value, skipSuffixes listed.rest,
      Nat.le_trans (skipSuffixes_length _) listed.bound⟩
termination_by 2 * ts.length
decreasing_by all_goals omega

/-- Reads type arguments behind their opening bracket, `found` (last first) being read. The list
ends with its bracket, or before a semicolon or brace. -/
def readArguments (depth : Nat) (found : List WrittenType) (ts : List Token) :
    Except Fault (Reading (List WrittenType) ts) :=
  match ts with
  | [] => .ok ⟨found.reverse, [], Nat.le_refl _⟩
  | t :: rest =>
    if t.isPunctuation ">" then .ok ⟨found.reverse, rest, Nat.le_succ _⟩
    else if t.isPunctuation "," then do
      return (← readArguments depth found rest).lift (Nat.le_succ _)
    else if t.isPunctuation ";" || t.isPunctuation "\x7b" || t.isPunctuation "\x7d" then
      .ok ⟨found.reverse, t :: rest, Nat.le_refl _⟩
    else do
      let read ← readType depth (t :: rest)
      match present : read.type? with
      | some argument =>
        have : read.rest.length < rest.length + 1 := read.rest_shorter present
        return (← readArguments depth (argument :: found) read.rest).lift read.bound
      | none =>
        have shorter : read.rest.tail.length ≤ rest.length := read.tail_bound
        return (← readArguments depth found read.rest.tail).lift (Nat.le_succ_of_le shorter)
termination_by 2 * ts.length + 1
decreasing_by all_goals simp only [List.length_cons]; omega

end

/-- Where no type starts nothing is taken but `global ::`. -/
theorem readType_rest_of_none {depth : Nat} {ts : List Token} {read : TypeReading ts}
    (h : readType depth ts = .ok read) (absent : read.type? = none) :
    read.rest = skipGlobal ts := by
  unfold readType at h
  split at h
  · obtain rfl := Except.ok.inj h
    simp at absent
  · split at h
    · next named =>
      obtain rfl := Except.ok.inj h
      exact named.symm
    · next t rest named =>
      dsimp only at h
      split at h
      · cases hs : readSegments depth [t.text] [] rest with
        | error e => rw [hs] at h; cases h
        | ok inner =>
          rw [hs] at h
          obtain rfl := Except.ok.inj h
          simp at absent
      · obtain rfl := Except.ok.inj h
        exact named.symm

end ConventionLint.Source
