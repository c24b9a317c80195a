import ConventionLint.Text.CharClass
import ConventionLint.Text.Split

/-!
# Taking texts apart again

Cutting at a separator undoes putting together with one: at the first, at each, or, for the newlines
that end lines, at all of them, provided that the parts have none themselves.
-/
namespace ConventionLint.Text

variable {sep : Char} {s : List Char}

theorem splitAtEach_append_of_notMem (parted : sep ∉ s) (t : List Char) :
    splitAtEach sep (s ++ t) = (splitAtEach sep t).modifyHead (s ++ ·) := by
  obtain ⟨first, others, pieces⟩ := List.exists_cons_of_ne_nil (splitAtEach_ne_nil sep t)
  rw [pieces]
  induction s with
  | nil => exact pieces
  | cons c s ih =>
    rw [List.mem_cons, not_or] at parted
    rw [List.cons_append, splitAtEach, if_neg (Ne.symm parted.1), ih parted.2]
    rfl

/-- Cutting at each separator may begin with any of them. -/
theorem splitAtEach_append_cons (sep : Char) (s t : List Char) :
    splitAtEach sep (s ++ sep :: t) = splitAtEach sep s ++ splitAtEach sep t := by
  induction s with
  | nil => simp [splitAtEach]
  | cons c s ih =>
    obtain ⟨first, others, pieces⟩ := List.exists_cons_of_ne_nil (splitAtEach_ne_nil sep s)
    rw [pieces] at ih
    by_cases same : c = sep
    · rw [List.cons_append, splitAtEach, if_pos same, ih, splitAtEach, if_pos same, pieces]
      rfl
    · rw [List.cons_append, splitAtEach, if_neg same, ih, splitAtEach, if_neg same, pieces]
      rfl

theorem cutFirst_append (parted : sep ∉ s) (t : List Char) :
    cutFirst sep (s ++ sep :: t) = some (s, t) := by
  induction s with
  | nil => simp [cutFirst]
  | cons c s ih =>
    rw [List.mem_cons, not_or] at parted
    rw [List.cons_append, cutFirst, if_neg (Ne.symm parted.1), ih parted.2]
    rfl

theorem cons_joinWith {l : List (List Char)} (some : l ≠ []) (sep : Char) :
    sep :: joinWith sep l = l.flatMap (sep :: ·) := by
  fun_induction joinWith sep l with
  | case1 => exact absurd rfl some
  | case2 segment => simp
  | case3 segment next segments ih =>
    rw [List.flatMap_cons, ← ih (List.cons_ne_nil _ _), List.cons_append]

/-- Segments that are not empty and have no separator are told by what they are joined to. -/
theorem joinWith_inj {l l' : List (List Char)} (parted : ∀ s ∈ l, s ≠ [] ∧ sep ∉ s)
    (parted' : ∀ s ∈ l', s ≠ [] ∧ sep ∉ s) (same : joinWith sep l = joinWith sep l') : l = l' := by
  have cut {l : List (List Char)} (parted : ∀ s ∈ l, s ≠ [] ∧ sep ∉ s) :
      (splitAtEach sep (joinWith sep l)).filter (· ≠ []) = l := by
    by_cases none : l = []
    · rw [none]
      rfl
    · rw [splitAtEach_joinWith none fun s member => (parted s member).2]
      simpa using fun s member => (parted s member).1
  rw [← cut parted, same, cut parted']

variable {line : List Char} {lines : List (List Char)}

theorem splitLines_append (single : '\n' ∉ line) (rest : List Char) :
    splitLines (line ++ '\n' :: rest) = line :: splitLines rest := by
  induction line with
  | nil => simp [splitLines]
  | cons c line ih =>
    rw [List.mem_cons, not_or] at single
    rw [List.cons_append, splitLines, if_neg (Ne.symm single.1), ih single.2]

theorem count_le_length_splitLines (s : List Char) : s.count '\n' ≤ (splitLines s).length := by
  induction s with
  | nil => simp
  | cons c rest ih =>
    unfold splitLines
    split
    · next newline => simp [newline, ih]
    · next other =>
      rw [List.count_cons_of_ne other]
      split
      · next none => simp_all
      · next found => simpa [found] using ih

/-- The lines that a text was put together from are found again unless there is a newline in one. -/
theorem splitLines_flatMap (single : ∀ line ∈ lines, '\n' ∉ line) :
    splitLines (lines.flatMap (· ++ ['\n'])) = lines := by
  induction lines with
  | nil => rfl
  | cons line lines ih =>
    rw [List.forall_mem_cons] at single
    rw [List.flatMap_cons, List.append_assoc, List.singleton_append, splitLines_append single.1,
      ih single.2]

theorem length_le_count_flatMap (lines : List (List Char)) :
    lines.length ≤ (lines.flatMap (· ++ ['\n'])).count '\n' := by
  induction lines with
  | nil => exact Nat.zero_le _
  | cons line lines ih =>
    rw [List.flatMap_cons, List.count_append, List.count_append, List.count_singleton_self,
      List.length_cons]
    omega

theorem single_of_count_le (few : (lines.flatMap (· ++ ['\n'])).count '\n' ≤ lines.length) :
    ∀ line ∈ lines, '\n' ∉ line := by
  induction lines with
  | nil => simp
  | cons line lines ih =>
    have others := length_le_count_flatMap lines
    rw [List.flatMap_cons, List.count_append, List.count_append, List.count_singleton_self,
      List.length_cons] at few
    have none : line.count '\n' = 0 := by omega
    exact List.forall_mem_cons.2 ⟨List.count_eq_zero.1 none, ih (by omega)⟩

/-- A newline in one of the lines would make one more of them. -/
theorem single_of_length_splitLines
    (many : (splitLines (lines.flatMap (· ++ ['\n']))).length = lines.length) :
    ∀ line ∈ lines, '\n' ∉ line :=
  single_of_count_le (many ▸ count_le_length_splitLines _)

end ConventionLint.Text
