import ConventionLint.Proofs.Source.TypeRoundTrip

/-!
# Reading written members

A written field, method or property is read as it was. Of the accessors of a property the last
setter counts, and storage comes with it when no accessor has a body.
-/
namespace ConventionLint.Source

open Lexeme

def startsPlain (ts : List Token) : Prop :=
  ∃ text p us, ts = ⟨.identifier, text, p⟩ :: us ∧ text ∉ modifierWords

section

variable {ts rest : List Token}

theorem readModifiers_startsPlain (plain : startsPlain rest) : readModifiers rest = ([], rest) := by
  obtain ⟨text, p, us, rfl, other⟩ := plain
  rw [readModifiers, if_neg (by simpa using fun listed => absurd listed other)]

theorem readModifiers_spelled {modifiers : List String}
    (listed : ∀ word ∈ modifiers, word ∈ modifierWords) (spelled : Spells (words modifiers) ts rest)
    (plain : startsPlain rest) : readModifiers ts = (modifiers, rest) := by
  induction modifiers generalizing ts with
  | nil =>
    obtain rfl := spells_nil.1 spelled
    exact readModifiers_startsPlain plain
  | cons modifier modifiers ih =>
    simp only [words, List.map_cons, spells_cons, word] at spelled
    obtain ⟨p, us, rfl, spelled⟩ := spelled
    have follows : ∃ text q vs, us = ⟨.identifier, text, q⟩ :: vs := by
      cases modifiers with
      | nil =>
        obtain rfl := spells_nil.1 spelled
        obtain ⟨text, q, vs, rfl, -⟩ := plain
        exact ⟨text, q, vs, rfl⟩
      | cons next modifiers =>
        simp only [List.map_cons, spells_cons, word] at spelled
        obtain ⟨q, vs, rfl, -⟩ := spelled
        exact ⟨next, q, vs, rfl⟩
    have later := ih (fun word member => listed word (List.mem_cons_of_mem _ member)) spelled
    obtain ⟨text, q, vs, rfl⟩ := follows
    have open_ : endsModifiers modifier (⟨.identifier, text, q⟩ :: vs) = false := by
      simp [endsModifiers]
    rw [readModifiers, if_pos (by simp [listed modifier (by simp), open_]), later]

/-- The accessibility that the words of an accessibility mean. -/
theorem ofModifiers_words (a : Accessibility) : Accessibility.ofModifiers a.words = some a := by
  cases a <;> decide

theorem words_modifierWords (a : Accessibility) : ∀ word ∈ a.words, word ∈ modifierWords := by
  cases a <;> decide

def addAccessor (property : Accessibility) (found : Accessors) (a : Accessor) : Accessors :=
  found.add a.keyword.text (a.accessibility.getD property) (!a.hasBody)

theorem skipAccessorBody_spelled {hasBody : Bool}
    (spelled : Spells (if hasBody then [mark "\x7b", mark "\x7d"] else [mark ";"]) ts rest) :
    skipAccessorBody ts = (!hasBody, rest) := by
  cases hasBody with
  | false =>
    simp only [Bool.false_eq_true, ↓reduceIte, spells_cons, spells_nil, mark] at spelled
    obtain ⟨p, us, rfl, rfl⟩ := spelled
    simp [skipAccessorBody]
  | true =>
    simp only [↓reduceIte, spells_cons, spells_nil, mark] at spelled
    obtain ⟨p, us, rfl, q, vs, rfl, rfl⟩ := spelled
    simp [skipAccessorBody, skipBalanced, skipGroup, Token.opens, Token.closes]

theorem readAccessors_accessor (property : Accessibility) (found : Accessors) {a : Accessor}
    (spelled : Spells a.lexemes ts rest) :
    readAccessors property found ts = readAccessors property (addAccessor property found a) rest := by
  rw [Accessor.lexemes] at spelled
  obtain ⟨us, modified, spelled⟩ := spells_append.1 spelled
  simp only [spells_cons, word] at spelled
  obtain ⟨p, vs, rfl, body⟩ := spelled
  have skipped := skipAccessorBody_spelled body
  have plain : startsPlain (⟨.identifier, a.keyword.text, p⟩ :: vs) :=
    ⟨a.keyword.text, p, vs, rfl, by cases a.keyword <;> decide⟩
  have modifiers : readModifiers ts =
      ((a.accessibility.map (·.words)).getD [], ⟨.identifier, a.keyword.text, p⟩ :: vs) := by
    refine readModifiers_spelled ?_ modified plain
    cases a.accessibility with
    | none => simp
    | some accessibility => exact words_modifierWords accessibility
  have accessible : (Accessibility.ofModifiers ((a.accessibility.map (·.words)).getD [])).getD
      property = a.accessibility.getD property := by
    cases a.accessibility with
    | none => rfl
    | some accessibility => simp [ofModifiers_words]
  obtain ⟨t, more, rfl, first⟩ : ∃ t more, ts = t :: more ∧ t.isIdentifier = true := by
    cases words_shape : (a.accessibility.map (·.words)).getD [] with
    | nil =>
      rw [words_shape] at modified
      obtain rfl := spells_nil.1 modified
      exact ⟨_, _, rfl, rfl⟩
    | cons modifier modifiers =>
      rw [words_shape] at modified
      simp only [words, List.map_cons, spells_cons, word] at modified
      obtain ⟨q, ws, rfl, -⟩ := modified
      exact ⟨_, _, rfl, rfl⟩
  have unmarked (text : String) : t.isPunctuation text = false := by
    have kind : t.kind = .identifier := by simpa [Token.isIdentifier] using first
    simp [Token.isPunctuation, kind]
  rw [readAccessors_cons, if_neg (by simp [unmarked]), if_neg (by simp [unmarked]), modifiers]
  simp only [isIdentifier_word, ↓reduceIte, accessible, skipped]
  rfl

theorem readAccessors_spelled (property : Accessibility) (found : Accessors)
    {accessors : List Accessor}
    (spelled : Spells (accessors.flatMap (·.lexemes) ++ [mark "\x7d"]) ts rest) :
    readAccessors property found ts = (accessors.foldl (addAccessor property) found, rest) := by
  induction accessors generalizing found ts with
  | nil =>
    simp only [List.flatMap_nil, List.nil_append, spells_cons, spells_nil, mark] at spelled
    obtain ⟨p, us, rfl, rfl⟩ := spelled
    rw [readAccessors_cons, if_pos (by simp)]
    rfl
  | cons a accessors ih =>
    rw [List.flatMap_cons, List.append_assoc] at spelled
    obtain ⟨mid, accessor, spelled⟩ := spells_append.1 spelled
    rw [readAccessors_accessor property found accessor, ih _ spelled, List.foldl_cons]

/-- The last setter counts. -/
theorem setter_foldl (property : Accessibility) (accessors : List Accessor) (found : Accessors) :
    (accessors.foldl (addAccessor property) found).setter =
      ((accessors.filterMap (·.setter? property)).getLast?).or found.setter := by
  induction accessors generalizing found with
  | nil => rfl
  | cons a accessors ih =>
    rw [List.foldl_cons, ih, List.filterMap_cons]
    obtain ⟨accessibility, keyword, hasBody⟩ := a
    have last (s : Setter) (setters : List Setter) :
        setters.getLast?.or (some s) = (s :: setters).getLast?.or found.setter := by
      rw [List.getLast?_cons]
      cases setters.getLast? <;> rfl
    cases keyword with
    | get => rfl
    | set => exact last _ _
    | init => exact last _ _

theorem auto_foldl (property : Accessibility) (accessors : List Accessor) (found : Accessors) :
    (accessors.foldl (addAccessor property) found).auto = true ↔
      (found.any = true ∨ accessors ≠ []) ∧ found.bodiless = true ∧
        ∀ a ∈ accessors, a.hasBody = false := by
  induction accessors generalizing found with
  | nil => simp [Accessors.auto]
  | cons a accessors ih =>
    rw [List.foldl_cons, ih]
    simp [addAccessor, Accessors.add, and_assoc]

theorem readAccessorList_spelled (property : Accessibility) {accessors : List Accessor}
    {owner : DeclarationKind} {setter : Option Setter} {auto : Bool}
    (tells : Accessor.Tells accessors property owner setter auto)
    (spelled : Spells (mark "\x7b" :: (accessors.flatMap (·.lexemes) ++ [mark "\x7d"])) ts rest)
    (ended : startsWith "=" rest = false) :
    ∃ found, readAccessorList property ts = (found, rest) ∧ found.setter = setter ∧
      (found.auto && !(owner = .interface)) = auto := by
  simp only [spells_cons, mark] at spelled
  obtain ⟨p, us, rfl, spelled⟩ := spelled
  refine ⟨accessors.foldl (addAccessor property) .none, ?_, ?_, ?_⟩
  · rw [readAccessorList, List.tail_cons, readAccessors_spelled property .none spelled]
    simp [ended]
  · rw [setter_foldl, tells.setter_eq]
    cases setter <;> rfl
  · rw [Bool.eq_iff_iff, Bool.and_eq_true, auto_foldl, tells.auto_iff]
    simp [Accessors.none, and_assoc]

theorem readMemberName_plain {name : Token} (plain : startsWithMark ["<", "."] rest = false) :
    readMemberName name rest = (name, false, rest) := by
  simp only [startsWithMark, List.any_cons, List.any_nil, Bool.or_false,
    Bool.or_eq_false_iff] at plain
  rw [readMemberName_eq, if_neg (by simp [plain.1])]
  split
  · next dot next more =>
    have dotless : dot.isPunctuation "." = false := by simpa using plain.2
    simp [dotless, plain.1]
  · simp [plain.1]

/-- Behind a type and a name without arguments, the member is the one that what follows tells. -/
theorem readTypedMember_name {owner : Owner} {modifiers : List String} {name : String} {p : Position}
    (named : isName name = true) (plain : startsWithMark ["<", "."] rest = false) :
    readTypedMember owner modifiers true (⟨.identifier, name, p⟩ :: rest) =
      readNamedMember owner modifiers ⟨.identifier, name, p⟩ false rest := by
  have free : name ≠ "operator" ∧ name ≠ "this" := by
    simp only [isName, reservedNames, Bool.and_eq_true] at named
    constructor <;> rintro rfl <;> exact absurd named.2 (by decide)
  simp [readTypedMember, free, readMemberName_plain plain]

/-- The type that a member is written with is passed over. -/
theorem readMember_typed {owner : Owner} {depth : Nat} {modifiers : List String} {type name : String}
    {p q : Position} {P : List MemberDeclaration × List Token → Prop}
    (shallow : depth ≤ maxNesting) (listed : type ≠ "event" ∧ type ≠ "operator")
    (named : isName name = true) (plain : startsWithMark ["<", "."] rest = false)
    (read : P (readNamedMember owner modifiers ⟨.identifier, name, q⟩ false rest)) :
    Outcome depth 0
      (readMember owner depth modifiers (⟨.identifier, type, p⟩ :: ⟨.identifier, name, q⟩ :: rest))
      P := by
  have spelled : Spells (WrittenType.simple type).lexemes
      (⟨.identifier, type, p⟩ :: ⟨.identifier, name, q⟩ :: rest)
      (⟨.identifier, name, q⟩ :: rest) :=
    spells_cons.2 ⟨p, _, rfl, spells_nil.2 rfl⟩
  rw [readMember_eq, if_neg (by simp), if_neg (by simp [startsUnlisted, listed])]
  refine Outcome.map shallow (typeOf_spelled shallow spelled endsType_word) ?_
  rintro _ rfl
  exact ⟨_, rfl, by rwa [Option.isSome_some, readTypedMember_name named plain]⟩

/-- The one member that was written, wherever its name stands. -/
def IsMember (m : MemberDeclaration) (rest : List Token)
    (read : List MemberDeclaration × List Token) : Prop :=
  read.1.map (·.unplaced) = [m.unplaced] ∧ read.2 = rest

section

variable {style : AccessorStyle} {m : MemberDeclaration} {owner : Owner} {name : String}
  {q : Position}

theorem readNamedMember_field (field : m.kind = .field) (spelled : Spells [mark ";"] ts rest) :
    IsMember m rest
      (readNamedMember owner m.accessibility.words ⟨.identifier, m.name, q⟩ false ts) := by
  simp only [spells_cons, spells_nil, mark] at spelled
  obtain ⟨p, us, rfl, rfl⟩ := spelled
  have single : readDeclarators 0 [] (⟨.punctuation, ";", p⟩ :: us) = ([], us) := by
    rw [readDeclarators.eq_def]
    simp
  simp [readNamedMember, ofModifiers_words, single, IsMember, MemberDeclaration.unplaced, field]

theorem readNamedMember_method (method : m.kind = .method)
    (spelled : Spells [mark "(", mark ")", mark ";"] ts rest) :
    IsMember m rest
      (readNamedMember owner m.accessibility.words ⟨.identifier, m.name, q⟩ false ts) := by
  simp only [spells_cons, spells_nil, mark] at spelled
  obtain ⟨p, us, rfl, q, vs, rfl, r, ws, rfl, rfl⟩ := spelled
  simp [readNamedMember, ofModifiers_words, skipMember, Token.opens, Token.closes, IsMember,
    MemberDeclaration.unplaced, method]

theorem readNamedMember_property {setter : Option Setter} {auto : Bool}
    (property : m.kind = .property setter auto) (writable : m.isWritable owner.kind = true)
    (spelled : Spells (mark "\x7b" ::
      ((style.accessors owner.kind m).flatMap (·.lexemes) ++ [mark "\x7d"])) ts rest)
    (ended : startsWith "=" rest = false) :
    IsMember m rest
      (readNamedMember owner m.accessibility.words ⟨.identifier, m.name, q⟩ false ts) := by
  have stored : auto = true → owner.kind ≠ .interface := by
    simp only [MemberDeclaration.isWritable, property, Bool.and_eq_true] at writable
    rintro rfl
    simpa using writable.2
  obtain ⟨found, read, setter_eq, auto_eq⟩ :=
    readAccessorList_spelled m.accessibility (style.tells property stored) spelled ended
  have unwritten : (m.accessibility.words.contains "abstract" ||
      m.accessibility.words.contains "extern") = false := by
    cases m.accessibility <;> decide
  have opened : startsWith "(" ts = false ∧ startsWith "\x7b" ts = true := by
    simp only [spells_cons, mark] at spelled
    obtain ⟨p, us, rfl, -⟩ := spelled
    simp
  have kind : (found.auto && !(owner.kind = .interface || m.accessibility.words.contains "abstract" ||
      m.accessibility.words.contains "extern")) = auto := by
    rw [Bool.or_assoc, unwritten, Bool.or_false, auto_eq]
  simp only [readNamedMember, ofModifiers_words, Option.getD_some, opened, read, kind, Bool.or_self,
    Bool.false_eq_true, ↓reduceIte]
  exact ⟨by simp [MemberDeclaration.unplaced, property, setter_eq], rfl⟩

end

theorem readNamedMember_spelled {style : AccessorStyle} {m : MemberDeclaration} {owner : Owner}
    {q : Position} (writable : m.isWritable owner.kind = true)
    (spelled : Spells (m.lexemesBehindName style owner.kind) ts rest)
    (ended : startsWith "=" rest = false) :
    startsWithMark ["<", "."] ts = false ∧ IsMember m rest
      (readNamedMember owner m.accessibility.words ⟨.identifier, m.name, q⟩ false ts) := by
  have opens {text : String} {more : List Lexeme} (other : text ∉ ["<", "."])
      (spelled : Spells (mark text :: more) ts rest) : startsWithMark ["<", "."] ts = false := by
    obtain ⟨p, us, rfl, -⟩ := spells_cons.1 spelled
    simpa [startsWithMark, mark] using other
  rw [MemberDeclaration.lexemesBehindName] at spelled
  cases kind : m.kind with
  | field =>
    rw [kind] at spelled
    exact ⟨opens (by simp) spelled, readNamedMember_field kind spelled⟩
  | method =>
    rw [kind] at spelled
    exact ⟨opens (by simp) spelled, readNamedMember_method kind spelled⟩
  | property setter auto =>
    rw [kind] at spelled
    exact ⟨opens (by simp) spelled, readNamedMember_property kind writable spelled ended⟩

/-- A member is read behind its modifiers, and it is no declaration of a type. -/
theorem readMember_spelled {style : AccessorStyle} {m : MemberDeclaration} {owner : Owner}
    {depth : Nat} (shallow : depth ≤ maxNesting) (writable : m.isWritable owner.kind = true)
    (spelled : Spells (m.lexemes style owner.kind) ts rest) (ended : startsWith "=" rest = false) :
    ∃ type p us, type ∈ ["int", "void"] ∧
      readModifiers ts = (m.accessibility.words, ⟨.identifier, type, p⟩ :: us) ∧
      Outcome depth 0
        (readMember owner depth m.accessibility.words (⟨.identifier, type, p⟩ :: us))
        (IsMember m rest) := by
  have named : isName m.name = true := by
    rw [MemberDeclaration.isWritable, Bool.and_eq_true] at writable
    exact writable.1
  have typed : m.typeWord ∈ ["int", "void"] := by
    rw [MemberDeclaration.typeWord]
    split <;> simp
  have plain : ∀ type ∈ ["int", "void"], type ∉ modifierWords := by decide
  have listed : ∀ type ∈ ["int", "void"], type ≠ "event" ∧ type ≠ "operator" := by decide
  obtain ⟨us, modified, spelled⟩ := spells_append.1 spelled
  simp only [spells_cons, word] at spelled
  obtain ⟨p, vs, rfl, q, ws, rfl, spelled⟩ := spelled
  obtain ⟨ended, read⟩ := readNamedMember_spelled writable spelled ended (q := q)
  exact ⟨m.typeWord, p, _, typed,
    readModifiers_spelled (words_modifierWords _) modified ⟨_, p, _, rfl, plain _ typed⟩,
    readMember_typed shallow (listed _ typed) named ended read⟩

end

end ConventionLint.Source
