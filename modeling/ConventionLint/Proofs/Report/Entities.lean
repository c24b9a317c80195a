import ConventionLint.Report.BuildServer
import Mathlib.Data.List.Basic

/-!
# Entities

Replacing the five special characters one after the other comes to the same as replacing each where
it stands, in one pass. What comes out has none of them but at the start of an entity, and reading
accepts exactly such texts: each has one text that it was written from.
-/
namespace ConventionLint.Xml

/-- The characters that mean something in markup, and what stands for them. -/
def entities : List (Char × List Char) :=
  [('&', "&amp;".toList), ('<', "&lt;".toList), ('>', "&gt;".toList), ('"', "&quot;".toList),
    ('\'', "&#39;".toList)]

def specials : List Char :=
  ['&', '<', '>', '"', '\'']

/-- None of the characters means something in markup. -/
def IsPlain (s : List Char) : Prop :=
  ∀ c ∈ s, c ∉ specials

instance (s : List Char) : Decidable (IsPlain s) :=
  List.decidableBAll _ s

/-- What is written for a character. -/
def encodeChar (c : Char) : List Char :=
  (entities.lookup c).getD [c]

/-- Every special character replaced in a single pass. -/
def encode (s : List Char) : List Char :=
  s.flatMap encodeChar

/-- Reads entities. There is no result where a special character is no part of one. -/
def decode : List Char → Option (List Char)
  | [] => some []
  | '&' :: 'a' :: 'm' :: 'p' :: ';' :: rest => (decode rest).map ('&' :: ·)
  | '&' :: 'l' :: 't' :: ';' :: rest => (decode rest).map ('<' :: ·)
  | '&' :: 'g' :: 't' :: ';' :: rest => (decode rest).map ('>' :: ·)
  | '&' :: 'q' :: 'u' :: 'o' :: 't' :: ';' :: rest => (decode rest).map ('"' :: ·)
  | '&' :: '#' :: '3' :: '9' :: ';' :: rest => (decode rest).map ('\'' :: ·)
  | c :: rest => if c ∈ specials then none else (decode rest).map (c :: ·)

variable {c : Char} {s t front behind : List Char}

theorem encode_cons : encode (c :: s) = encodeChar c ++ encode s := rfl

/-- A character is special, and then it has an entity, or is written as it is. -/
theorem encodeChar_cases (c : Char) :
    (c ∈ specials ∧ (c, encodeChar c) ∈ entities) ∨ (c ∉ specials ∧ encodeChar c = [c]) := by
  by_cases special : c ∈ specials
  · refine .inl ⟨special, ?_⟩
    simp only [specials, List.mem_cons, List.not_mem_nil, or_false] at special
    rcases special with rfl | rfl | rfl | rfl | rfl <;> decide
  · refine .inr ⟨special, ?_⟩
    simp only [specials, List.mem_cons, List.not_mem_nil, or_false, not_or] at special
    simp [encodeChar, entities, List.lookup_cons, beq_false_of_ne, special]

theorem encodeChar_of_notMem (plain : c ∉ specials) : encodeChar c = [c] :=
  (encodeChar_cases c).elim (fun h => absurd h.1 plain) (·.2)

theorem escapeList_eq_flatMap (s : List Char) :
    escapeList s = s.flatMap fun c => escapeList [c] := by
  simp only [escapeList, substitute, List.flatMap_assoc, List.flatMap_cons, List.flatMap_nil,
    List.append_nil]

theorem substitute_singleton {d : Char} (apart : c ≠ d) (text : String) :
    substitute d text [c] = [c] := by
  rw [substitute, List.flatMap_singleton, if_neg apart]

theorem escapeList_singleton (c : Char) : escapeList [c] = encodeChar c := by
  by_cases special : c ∈ specials
  · simp only [specials, List.mem_cons, List.not_mem_nil, or_false] at special
    rcases special with rfl | rfl | rfl | rfl | rfl <;> decide
  · rw [encodeChar_of_notMem special]
    simp only [specials, List.mem_cons, List.not_mem_nil, or_false, not_or] at special
    obtain ⟨ampersand, less, greater, quote, apostrophe⟩ := special
    rw [escapeList, substitute_singleton ampersand, substitute_singleton less,
      substitute_singleton greater, substitute_singleton quote, substitute_singleton apostrophe]

theorem escapeList_eq_encode (s : List Char) : escapeList s = encode s := by
  rw [escapeList_eq_flatMap]
  simp only [escapeList_singleton, encode]

theorem decode_encodeChar (c : Char) (t : List Char) :
    decode (encodeChar c ++ t) = (decode t).map (c :: ·) := by
  by_cases special : c ∈ specials
  · simp only [specials, List.mem_cons, List.not_mem_nil, or_false] at special
    rcases special with rfl | rfl | rfl | rfl | rfl <;> rfl
  · have ampersand : c ≠ '&' := by
      rintro rfl
      exact special (by decide)
    rw [encodeChar_of_notMem special, List.singleton_append, decode, if_neg special] <;>
      exact fun _ same => absurd same ampersand

theorem decode_encode (s : List Char) : decode (encode s) = some s := by
  induction s with
  | nil => rfl
  | cons c s ih => rw [encode_cons, decode_encodeChar, ih, Option.map_some]

theorem eq_encode_of_decode (read : decode t = some s) : t = encode s := by
  fun_induction decode t generalizing s with
  | case1 =>
    cases read
    rfl
  | case2 rest ih | case3 rest ih | case4 rest ih | case5 rest ih | case6 rest ih =>
    obtain ⟨further, rest, rfl⟩ := Option.map_eq_some_iff.1 read
    rw [encode_cons, ← ih rest]
    rfl
  | case7 => cases read
  | case8 c rest _ _ _ _ _ plain ih =>
    obtain ⟨further, rest, rfl⟩ := Option.map_eq_some_iff.1 read
    rw [encode_cons, ← ih rest, encodeChar_of_notMem plain, List.singleton_append]

theorem decode_eq_some_iff : decode t = some s ↔ t = encode s :=
  ⟨eq_encode_of_decode, fun written => written ▸ decode_encode s⟩

theorem notMem_encode {special : Char} (member : special ∈ specials) (other : special ≠ '&') :
    special ∉ encode s := by
  intro inside
  obtain ⟨c, -, written⟩ := List.mem_flatMap.1 inside
  rcases encodeChar_cases c with ⟨-, entity⟩ | ⟨plain, single⟩
  · have apart : ∀ e ∈ entities, ∀ d ∈ e.2, d ∈ specials → d = '&' := by simp [entities, specials]
    exact other (apart _ entity _ written member)
  · rw [single, List.mem_singleton] at written
    exact plain (written ▸ member)

/-- An ampersand begins what is written for a special character. -/
theorem entity_of_encodeChar (parts : encodeChar c = front ++ '&' :: behind) :
    front = [] ∧ ('&' :: behind) ∈ entities.map (·.2) := by
  rcases encodeChar_cases c with ⟨-, entity⟩ | ⟨plain, single⟩
  · have first : ∀ e ∈ entities, '&' ∉ e.2.tail := by decide
    cases front with
    | nil => exact ⟨rfl, List.mem_map.2 ⟨_, entity, parts⟩⟩
    | cons d front =>
      refine absurd ?_ (first _ entity)
      rw [parts, List.cons_append, List.tail_cons]
      simp
  · rw [single] at parts
    cases front with
    | nil =>
      obtain rfl : c = '&' := (List.cons.inj parts).1
      exact absurd (by decide) plain
    | cons d front => simp at parts

/-- Each ampersand begins an entity. -/
theorem entity_of_encode (parts : encode s = front ++ '&' :: behind) :
    ∃ entity ∈ entities, entity.2 <+: '&' :: behind := by
  induction s generalizing front with
  | nil => simp [encode] at parts
  | cons c s ih =>
    rw [encode_cons] at parts
    rcases List.append_eq_append_iff.1 parts with ⟨rest, -, further⟩ | ⟨rest, here, further⟩
    · exact ih further
    · cases rest with
      | nil => exact @ih [] further.symm
      | cons d rest =>
        obtain ⟨rfl, rfl⟩ := List.cons.inj further
        obtain ⟨-, entity⟩ := entity_of_encodeChar here
        obtain ⟨e, member, written⟩ := List.mem_map.1 entity
        exact ⟨e, member, written ▸ List.prefix_append ..⟩

theorem encode_of_plain (plain : IsPlain s) : encode s = s := by
  induction s with
  | nil => rfl
  | cons c s ih =>
    rw [IsPlain, List.forall_mem_cons] at plain
    rw [encode_cons, encodeChar_of_notMem plain.1, ih plain.2, List.singleton_append]

end ConventionLint.Xml
