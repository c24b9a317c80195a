/-!
# Splitting a text

`splitAtEach` cuts at every occurrence of a separator and always yields at least one segment, so
joining the segments with the separator gives the text back. Segments without the separator come
back from splitting what they are joined to. `cutFirst` and `cutLast` cut at the first and at the
last occurrence only. Texts are also trimmed and divided into lines here.
-/
namespace ConventionLint.Text

def splitAtEach (sep : Char) : List Char → List (List Char)
  | [] => [[]]
  | c :: rest =>
    if c = sep then [] :: splitAtEach sep rest
    else
      match splitAtEach sep rest with
      | [] => [[c]]
      | segment :: segments => (c :: segment) :: segments

/-- The segments with one separator between neighbours. -/
def joinWith (sep : Char) : List (List Char) → List Char
  | [] => []
  | [segment] => segment
  | segment :: next :: segments => segment ++ sep :: joinWith sep (next :: segments)

theorem splitAtEach_ne_nil (sep : Char) (s : List Char) : splitAtEach sep s ≠ [] := by
  cases s with
  | nil => simp [splitAtEach]
  | cons c rest =>
    unfold splitAtEach
    split
    · simp
    · split <;> simp

theorem joinWith_splitAtEach (sep : Char) (s : List Char) :
    joinWith sep (splitAtEach sep s) = s := by
  induction s with
  | nil => rfl
  | cons c rest ih =>
    unfold splitAtEach
    split
    · next h =>
      obtain ⟨x, xs, hx⟩ := List.exists_cons_of_ne_nil (splitAtEach_ne_nil sep rest)
      rw [hx] at ih ⊢
      simp [joinWith, ih, h]
    · obtain ⟨x, xs, hx⟩ := List.exists_cons_of_ne_nil (splitAtEach_ne_nil sep rest)
      rw [hx] at ih ⊢
      cases xs <;> simp_all [joinWith]

theorem notMem_of_mem_splitAtEach {sep : Char} {s segment : List Char}
    (member : segment ∈ splitAtEach sep s) : sep ∉ segment := by
  induction s generalizing segment with
  | nil => simp_all [splitAtEach]
  | cons c rest ih =>
    obtain ⟨first, others, pieces⟩ := List.exists_cons_of_ne_nil (splitAtEach_ne_nil sep rest)
    rw [splitAtEach, pieces] at member
    rw [pieces] at ih
    by_cases h : c = sep
    · rw [if_pos h] at member
      rcases List.mem_cons.1 member with rfl | behind
      · exact List.not_mem_nil
      · exact ih behind
    · rw [if_neg h] at member
      rcases List.mem_cons.1 member with rfl | behind
      · simp [Ne.symm h, ih List.mem_cons_self]
      · exact ih (List.mem_cons_of_mem _ behind)

theorem splitAtEach_of_notMem {sep : Char} {s : List Char} (parted : sep ∉ s) :
    splitAtEach sep s = [s] := by
  induction s with
  | nil => rfl
  | cons c rest ih =>
    rw [List.mem_cons, not_or] at parted
    rw [splitAtEach, if_neg (Ne.symm parted.1), ih parted.2]

theorem splitAtEach_append {sep : Char} {s : List Char} (parted : sep ∉ s) (rest : List Char) :
    splitAtEach sep (s ++ sep :: rest) = s :: splitAtEach sep rest := by
  induction s with
  | nil => simp [splitAtEach]
  | cons c s ih =>
    rw [List.mem_cons, not_or] at parted
    rw [List.cons_append, splitAtEach, if_neg (Ne.symm parted.1), ih parted.2]

theorem splitAtEach_joinWith {sep : Char} {segments : List (List Char)} (some : segments ≠ [])
    (parted : ∀ s ∈ segments, sep ∉ s) :
    splitAtEach sep (joinWith sep segments) = segments := by
  induction segments with
  | nil => exact absurd rfl some
  | cons s rest ih =>
    rw [List.forall_mem_cons] at parted
    cases rest with
    | nil => exact splitAtEach_of_notMem parted.1
    | cons next rest =>
      rw [joinWith, splitAtEach_append parted.1, ih (List.cons_ne_nil _ _) parted.2]

/-- What stands before and after the first separator. -/
def cutFirst (sep : Char) : List Char → Option (List Char × List Char)
  | [] => none
  | c :: rest =>
    if c = sep then some ([], rest)
    else (cutFirst sep rest).map fun (before, after) => (c :: before, after)

/-- What stands before and after the last separator. -/
def cutLast (sep : Char) : List Char → Option (List Char × List Char)
  | [] => none
  | c :: rest =>
    match cutLast sep rest with
    | some (before, after) => some (c :: before, after)
    | none => if c = sep then some ([], rest) else none

theorem eq_of_cutFirst {sep : Char} {s before after : List Char}
    (h : cutFirst sep s = some (before, after)) : s = before ++ sep :: after := by
  induction s generalizing before with
  | nil => simp [cutFirst] at h
  | cons c rest ih =>
    unfold cutFirst at h
    split at h
    · next hc => simp_all
    · simp only [Option.map_eq_some_iff, Prod.exists, Prod.mk.injEq] at h
      obtain ⟨b, a, hr, rfl, rfl⟩ := h
      simp [ih hr]

theorem eq_of_cutLast {sep : Char} {s before after : List Char}
    (h : cutLast sep s = some (before, after)) : s = before ++ sep :: after := by
  induction s generalizing before with
  | nil => simp [cutLast] at h
  | cons c rest ih =>
    unfold cutLast at h
    split at h
    · next hr =>
      simp only [Option.some.injEq, Prod.mk.injEq] at h
      obtain ⟨rfl, rfl⟩ := h
      simp [ih hr]
    · split at h
      · next hc => simp_all
      · simp at h

/-- Drops the elements that `p` holds of from the end. -/
def trimEnd {α : Type} (p : α → Bool) (l : List α) : List α :=
  (l.reverse.dropWhile p).reverse

/-- Drops the elements that `p` holds of from both ends. -/
def trimBoth {α : Type} (p : α → Bool) (l : List α) : List α :=
  ((l.dropWhile p).reverse.dropWhile p).reverse

/-- The lines that end in a newline, and what follows the last one unless it is empty. -/
def splitLines : List Char → List (List Char)
  | [] => []
  | c :: rest =>
    if c = '\n' then [] :: splitLines rest
    else
      match splitLines rest with
      | [] => [[c]]
      | line :: lines => (c :: line) :: lines

end ConventionLint.Text
