import ConventionLint.Proofs.Source.Outcome
import ConventionLint.Proofs.Source.PlainReading

/-!
# Reading written types

A written type is read as it was, whatever stands before it, as long as what follows does not go on
with it.
-/
namespace ConventionLint.Source

open Lexeme

/-- No type goes on here. -/
def endsType (ts : List Token) : Bool :=
  !startsWithMark [".", "::", "<", "?", "*", "["] ts

section

variable {depth : Nat} {ts rest : List Token}

theorem startsWith_of_endsType (ended : endsType rest = true) (text : String)
    (continues : text ∈ [".", "::", "<", "?", "*", "["]) : startsWith text rest = false := by
  rw [endsType, Bool.not_eq_true', startsWithMark, List.any_eq_false] at ended
  exact eq_false_of_ne_true (ended text continues)

theorem endsType_word {text : String} {p : Position} :
    endsType (⟨.identifier, text, p⟩ :: rest) = true := by
  simp [endsType, startsWithMark]

theorem endsType_mark {text : String} {p : Position}
    (other : text ∉ [".", "::", "<", "?", "*", "["]) :
    endsType (⟨.punctuation, text, p⟩ :: rest) = true := by
  simpa [endsType, startsWithMark] using other

theorem skipSuffixes_of_endsType (ended : endsType rest = true) : skipSuffixes rest = rest := by
  cases rest with
  | nil => rw [skipSuffixes]
  | cons t rest =>
    have question := startsWith_of_endsType ended "?" (by simp)
    have star := startsWith_of_endsType ended "*" (by simp)
    have rank := startsWith_of_endsType ended "[" (by simp)
    rw [startsWith_cons] at question star rank
    rw [skipSuffixes, question, star, rank]
    simp

/-- Where the type ends, its segments and arguments make it up. -/
theorem segmentsOf_behind {arguments found : List WrittenType} {n : Nat}
    (shallow : depth ≤ maxNesting) (segments : List String)
    (listed : Outcome depth n (argumentListOf depth found ts) (· = (arguments, rest)))
    (ended : endsType rest = true) :
    Outcome depth n (segmentsOf depth segments found ts)
      (· = (writtenType segments arguments, rest)) := by
  have dotless := startsWith_of_endsType ended "." (by simp)
  have colonless := startsWith_of_endsType ended "::" (by simp)
  rw [segmentsOf_eq]
  refine listed.map shallow ?_
  rintro _ rfl
  refine ⟨_, ?_, rfl⟩
  dsimp only
  rw [skipSuffixes_of_endsType ended]
  rcases rest with _ | ⟨separator, _ | ⟨name, more⟩⟩
  · rfl
  · rfl
  · rw [startsWith_cons] at dotless colonless
    simp [dotless, colonless]

/-- The segments of a dotted name behind its first are added to those read. -/
theorem segmentsOf_dotted {n : Nat} {P : WrittenType × List Token → Prop} {mid : List Token}
    (names segments : List String)
    (spelled : Spells (names.flatMap fun name => [mark ".", word name]) ts mid)
    (behind : Outcome depth n (segmentsOf depth (names.reverse ++ segments) [] mid) P) :
    Outcome depth n (segmentsOf depth segments [] ts) P := by
  induction names generalizing segments ts with
  | nil =>
    obtain rfl := spells_nil.1 spelled
    exact behind
  | cons name names ih =>
    simp only [List.flatMap_cons, List.cons_append, List.nil_append, spells_cons, mark,
      word] at spelled
    obtain ⟨p, us, rfl, q, vs, rfl, spelled⟩ := spelled
    have later := ih (name :: segments) spelled (by simpa using behind)
    rw [segmentsOf_eq, argumentListOf]
    simpa [bind, Except.bind] using later

/-- The segments make the qualifier and the name again. -/
theorem writtenType_segments (qualifier : Option String) (name : String)
    (arguments listed : List WrittenType) :
    writtenType (WrittenType.segments ⟨qualifier, name, listed⟩).reverse arguments =
      ⟨qualifier, name, arguments⟩ := by
  cases qualifier with
  | none => rfl
  | some qualifier =>
    obtain ⟨first, more, shape⟩ := List.exists_cons_of_ne_nil
      (List.reverse_eq_nil_iff.not.2 (Text.segments_ne_nil qualifier))
    have whole := Text.intercalate_segments qualifier
    rw [← List.reverse_reverse (Text.segments qualifier), shape] at whole
    simp only [WrittenType.segments, List.reverse_append, List.reverse_singleton,
      List.singleton_append, shape, writtenType, whole]

/-- Behind its first segment a dotted name goes on with a dot or ends. -/
theorem startsWith_tail_of_dotted {names : List String} {mid : List Token} {text : String}
    (some : names ≠ []) (spelled : Spells (dotted names) ts mid) (other : text ≠ ".")
    (ended : startsWith text mid = false) : startsWith text ts.tail = false := by
  rcases names with _ | ⟨name, _ | ⟨next, names⟩⟩
  · exact absurd rfl some
  · obtain ⟨p, us, rfl, behind⟩ := spells_cons.1 spelled
    obtain rfl := spells_nil.1 behind
    exact ended
  · obtain ⟨p, us, rfl, behind⟩ := spells_cons.1 spelled
    rw [List.tail_cons, startsWith_of_spells_mark behind]
    simpa using other.symm

theorem skipGlobal_spelled {names : List String} {mid : List Token} (some : names ≠ [])
    (spelled : Spells (dotted names) ts mid) (ended : startsWith "::" mid = false) :
    skipGlobal ts = ts := by
  rw [skipGlobal, startsWith_tail_of_dotted some spelled (by simp) ended, Bool.and_false,
    if_neg (by simp)]

/-- A dotted name is read from its first segment on. -/
theorem typeOf_dotted {n : Nat} {names : List String} {mid : List Token} {arguments : List WrittenType}
    {type : WrittenType} (shallow : depth ≤ maxNesting) (some : names ≠ [])
    (spelled : Spells (dotted names) ts mid) (named : startsWith "::" mid = false)
    (made : writtenType names.reverse arguments = type)
    (listed : Outcome depth n (argumentListOf depth [] mid) (· = (arguments, rest)))
    (ended : endsType rest = true) :
    Outcome depth n (typeOf depth ts) (· = (Option.some type, rest)) := by
  cases names with
  | nil => exact absurd rfl some
  | cons name names =>
    have unqualified := skipGlobal_spelled some spelled named
    simp only [dotted, spells_cons, word] at spelled
    obtain ⟨p, us, rfl, spelled⟩ := spelled
    have behind := segmentsOf_behind shallow (names.reverse ++ [name]) listed ended
    rw [List.reverse_cons] at made
    rw [made] at behind
    rw [typeOf_eq, if_neg (by simp), unqualified]
    refine Outcome.map shallow (segmentsOf_dotted names [name] spelled behind) ?_
    rintro _ rfl
    exact ⟨_, rfl, rfl⟩

theorem lexemes_starts (type : WrittenType) : ∃ first more, type.lexemes = word first :: more := by
  obtain ⟨qualifier, name, arguments⟩ := type
  obtain ⟨first, segments, shape⟩ := List.exists_cons_of_ne_nil
    (WrittenType.segments_ne_nil ⟨qualifier, name, []⟩)
  cases arguments with
  | nil => exact ⟨first, _, by rw [WrittenType.lexemes, shape, dotted]⟩
  | cons => exact ⟨first, _, by rw [WrittenType.lexemes, shape, dotted, List.cons_append]⟩

/-- An argument is read, and then those behind it. -/
theorem argumentsOf_first {type : WrittenType} {types found : List WrittenType} {m n : Nat}
    {mid : List Token} {more : List Lexeme} (spelled : Spells (type.lexemes ++ more) ts rest)
    (first : Outcome depth m (typeOf depth ts) (· = (some type, mid)))
    (later : Outcome depth n (argumentsOf depth (type :: found) mid)
      (· = (found.reverse ++ type :: types, rest))) :
    Outcome depth (max m n) (argumentsOf depth found ts)
      (· = (found.reverse ++ type :: types, rest)) := by
  obtain ⟨name, behind, starts⟩ := lexemes_starts type
  rw [starts, List.cons_append, spells_cons] at spelled
  obtain ⟨p, us, rfl, -⟩ := spelled
  rw [argumentsOf_cons, if_neg (by simp [word]), if_neg (by simp [word]), if_neg (by simp [word])]
  refine first.bind ?_
  rintro _ rfl
  exact later

/-- Nothing goes on with a type that others stand behind in a list. -/
theorem endsType_lexemesBehind {types : List WrittenType} (ended : endsType rest = true)
    (spelled : Spells (WrittenType.lexemesBehind types) ts rest) : endsType ts = true := by
  cases types with
  | nil =>
    obtain rfl := spells_nil.1 spelled
    exact ended
  | cons type types =>
    simp only [WrittenType.lexemesBehind, spells_cons, mark] at spelled
    obtain ⟨p, us, rfl, -⟩ := spelled
    exact endsType_mark (by simp)

theorem endsType_arguments {types : List WrittenType}
    (spelled : Spells (WrittenType.lexemesBehind types ++ [mark ">"]) ts rest) :
    endsType ts = true := by
  obtain ⟨mid, listed, closed⟩ := spells_append.1 spelled
  obtain ⟨p, us, rfl, -⟩ := spells_cons.1 closed
  exact endsType_lexemesBehind (endsType_mark (by simp [mark])) listed

mutual

theorem typeOf_spelled : ∀ {type : WrittenType} {depth : Nat} {ts rest : List Token},
    depth ≤ maxNesting → Spells type.lexemes ts rest → endsType rest = true →
    Outcome depth type.nesting (typeOf depth ts) (· = (some type, rest))
  | ⟨qualifier, name, []⟩, depth, ts, rest, shallow, spelled, ended => by
    have unopened := startsWith_of_endsType ended "<" (by simp)
    rw [WrittenType.lexemes] at spelled
    refine typeOf_dotted shallow (WrittenType.segments_ne_nil _) spelled
      (startsWith_of_endsType ended "::" (by simp)) (writtenType_segments qualifier name [] []) ?_ ended
    rw [argumentListOf, if_neg (by simp [unopened])]
    exact .ok shallow rfl
  | ⟨qualifier, name, first :: more⟩, depth, ts, rest, shallow, spelled, ended => by
    rw [WrittenType.lexemes] at spelled
    obtain ⟨mid, named, listed⟩ := spells_append.1 spelled
    simp only [spells_cons, mark] at listed
    obtain ⟨p, us, rfl, listed⟩ := listed
    refine typeOf_dotted shallow (WrittenType.segments_ne_nil _) named (by simp)
      (writtenType_segments qualifier name (first :: more) []) ?_ ended
    rw [argumentListOf, if_pos (by simp), List.tail_cons, WrittenType.nesting]
    refine Outcome.enter shallow fun shallow => ?_
    obtain ⟨vs, argument, arguments⟩ := spells_append.1 listed
    exact argumentsOf_first listed
      (typeOf_spelled shallow argument (endsType_arguments arguments))
      (argumentsOf_spelled [first] shallow arguments)

theorem argumentsOf_spelled : ∀ {types : List WrittenType} {depth : Nat} {ts rest : List Token}
    (found : List WrittenType), depth ≤ maxNesting →
    Spells (WrittenType.lexemesBehind types ++ [mark ">"]) ts rest →
    Outcome depth (WrittenType.nestingAll types) (argumentsOf depth found ts)
      (· = (found.reverse ++ types, rest))
  | [], depth, ts, rest, found, shallow, spelled => by
    simp only [WrittenType.lexemesBehind, List.nil_append, spells_cons, spells_nil, mark] at spelled
    obtain ⟨p, us, rfl, rfl⟩ := spelled
    rw [argumentsOf_cons, if_pos (by simp)]
    exact .ok shallow (by simp)
  | type :: types, depth, ts, rest, found, shallow, spelled => by
    simp only [WrittenType.lexemesBehind, List.cons_append, List.append_assoc, spells_cons,
      mark] at spelled
    obtain ⟨p, us, rfl, spelled⟩ := spelled
    obtain ⟨vs, argument, arguments⟩ := spells_append.1 spelled
    have later := argumentsOf_spelled (type :: found) shallow arguments
    rw [List.reverse_cons, List.append_assoc] at later
    rw [argumentsOf_cons, if_neg (by simp), if_pos (by simp), WrittenType.nestingAll]
    exact argumentsOf_first spelled
      (typeOf_spelled shallow argument (endsType_arguments arguments)) later

end

end

end ConventionLint.Source
