import ConventionLint.Proofs.Source.MemberRoundTrip

/-!
# Reading written type declarations

A written declaration is read as it was, with everything nested in it, unless something in it nests
too deep.
-/
namespace ConventionLint.Source

open Lexeme

section

variable {depth : Nat} {ts rest mid : List Token}

theorem ne_of_isName {name : String} (named : isName name = true) {other : String}
    (reserved : other ∈ reservedNames) : name ≠ other := by
  rintro rfl
  simp [isName, reserved] at named

/-- A declaration starts with the keywords of its kind. -/
theorem declarationKind_spelled {kind : DeclarationKind} {name : String} {p : Position}
    {us : List Token} (named : isName name = true)
    (spelled : Spells (words kind.keywords) ts (⟨.identifier, name, p⟩ :: us)) :
    ∃ keyword q vs, ts = ⟨.identifier, keyword, q⟩ :: vs ∧
      keyword ∈ ["class", "struct", "interface", "record"] ∧ startsDeclaration ts = true ∧
      declarationKind keyword vs = (some kind, ⟨.identifier, name, p⟩ :: us) := by
  have free : name ≠ "struct" ∧ name ≠ "class" :=
    ⟨ne_of_isName named (by decide), ne_of_isName named (by decide)⟩
  cases kind <;>
    simp only [DeclarationKind.keywords, words, word, List.map_cons, List.map_nil, spells_cons,
      spells_nil] at spelled
  case recordStruct =>
    obtain ⟨q, vs, rfl, r, ws, rfl, rfl⟩ := spelled
    exact ⟨_, q, _, rfl, by simp, by simp [startsDeclaration], by simp [declarationKind]⟩
  all_goals
    obtain ⟨q, vs, rfl, rfl⟩ := spelled
    exact ⟨_, q, _, rfl, by simp, by simp [startsDeclaration], by simp [declarationKind, free]⟩

/-- Names are added to the type parameters. -/
theorem readTypeParameters_name {name : String} {p : Position} (named : isName name = true)
    (found : List String) :
    readTypeParameters found (⟨.identifier, name, p⟩ :: rest) =
      readTypeParameters (name :: found) rest := by
  have free : name ≠ "in" ∧ name ≠ "out" :=
    ⟨ne_of_isName named (by decide), ne_of_isName named (by decide)⟩
  rw [readTypeParameters]
  simp [free]

theorem readTypeParameters_spelled {names : List String} (found : List String)
    (named : names.all isName = true)
    (spelled : Spells ((names.flatMap fun name => [mark ",", word name]) ++ [mark ">"]) ts rest) :
    readTypeParameters found ts = (found.reverse ++ names, rest) := by
  induction names generalizing found ts with
  | nil =>
    simp only [List.flatMap_nil, List.nil_append, spells_cons, spells_nil, mark] at spelled
    obtain ⟨p, us, rfl, rfl⟩ := spelled
    rw [readTypeParameters]
    simp
  | cons name names ih =>
    simp only [List.flatMap_cons, List.cons_append, List.nil_append, spells_cons, mark,
      word] at spelled
    obtain ⟨p, us, rfl, q, vs, rfl, spelled⟩ := spelled
    rw [List.all_cons, Bool.and_eq_true] at named
    rw [readTypeParameters]
    simp [readTypeParameters_name named.1, ih (name :: found) named.2 spelled]

theorem readTypeParameterList_spelled {names : List String} (named : names.all isName = true)
    (spelled : Spells (TypeDeclaration.typeParameterLexemes names) ts rest)
    (ended : startsWith "<" rest = false) : readTypeParameterList ts = (names, rest) := by
  cases names with
  | nil =>
    obtain rfl := spells_nil.1 spelled
    rw [readTypeParameterList, if_neg (by simp [ended])]
  | cons first more =>
    simp only [TypeDeclaration.typeParameterLexemes, List.cons_append, spells_cons, mark,
      word] at spelled
    obtain ⟨p, us, rfl, q, vs, rfl, spelled⟩ := spelled
    rw [List.all_cons, Bool.and_eq_true] at named
    rw [readTypeParameterList, if_pos (by simp), List.tail_cons, readTypeParameters_name named.1,
      readTypeParameters_spelled [first] named.2 spelled]
    rfl

theorem startsWith_eq_cons {text : String} (starts : startsWith text ts = true) :
    ∃ p us, ts = ⟨.punctuation, text, p⟩ :: us := by
  rcases ts with _ | ⟨⟨kind, written, p⟩, us⟩
  · cases starts
  · simp only [startsWith_cons, Token.isPunctuation, Bool.and_eq_true, decide_eq_true_eq] at starts
    obtain ⟨rfl, rfl⟩ := starts
    exact ⟨p, us, rfl⟩

theorem basesOf_spelled {type : WrittenType} {types : List WrittenType} (found : List WrittenType)
    (shallow : depth ≤ maxNesting)
    (spelled : Spells (type.lexemes ++ WrittenType.lexemesBehind types) ts rest)
    (opened : startsWith "\x7b" rest = true) :
    Outcome depth (max type.nesting (WrittenType.nestingAll types)) (basesOf depth found ts)
      (· = (found.reverse ++ type :: types, rest)) := by
  obtain ⟨p, us, rfl⟩ := startsWith_eq_cons opened
  have ended : endsType (⟨.punctuation, "\x7b", p⟩ :: us) = true := endsType_mark (by simp)
  induction types generalizing type found ts with
  | nil =>
    rw [WrittenType.lexemesBehind, List.append_nil] at spelled
    rw [basesOf_eq, WrittenType.nestingAll, Nat.max_zero]
    refine Outcome.map shallow (typeOf_spelled shallow spelled ended) ?_
    rintro _ rfl
    exact ⟨_, rfl, by simp [skipParameters]⟩
  | cons next types ih =>
    obtain ⟨mid, first, behind⟩ := spells_append.1 spelled
    have first_ended := endsType_lexemesBehind ended behind
    simp only [WrittenType.lexemesBehind, spells_cons, mark] at behind
    obtain ⟨q, vs, rfl, behind⟩ := behind
    rw [basesOf_eq, WrittenType.nestingAll]
    refine Outcome.bind (typeOf_spelled shallow first first_ended) ?_
    rintro _ rfl
    have later := ih (type :: found) behind
    simpa [skipParameters] using later

theorem baseListOf_spelled {types : List WrittenType} (shallow : depth ≤ maxNesting)
    (spelled : Spells (TypeDeclaration.baseLexemes types) ts rest)
    (opened : startsWith "\x7b" rest = true) :
    Outcome depth (WrittenType.nestingAll types) (baseListOf depth ts) (· = (types, rest)) := by
  cases types with
  | nil =>
    obtain rfl := spells_nil.1 spelled
    obtain ⟨p, us, rfl⟩ := startsWith_eq_cons opened
    rw [baseListOf, if_neg (by simp)]
    exact .ok shallow rfl
  | cons type types =>
    simp only [TypeDeclaration.baseLexemes, spells_cons, mark] at spelled
    obtain ⟨p, us, rfl, spelled⟩ := spelled
    rw [baseListOf, if_pos (by simp), List.tail_cons]
    exact basesOf_spelled [] shallow spelled opened

/-- The head of a declaration is read up to the brace that opens its body. -/
theorem headerOf_spelled {keyword name : String} {kind : DeclarationKind} {p : Position}
    {us : List Token} {typeParameters : List String} {bases : List WrittenType}
    (shallow : depth ≤ maxNesting)
    (kinded : declarationKind keyword ts = (some kind, ⟨.identifier, name, p⟩ :: us))
    (named : typeParameters.all isName = true)
    (spelled : Spells (TypeDeclaration.typeParameterLexemes typeParameters ++
      TypeDeclaration.baseLexemes bases) us rest)
    (opened : startsWith "\x7b" rest = true) :
    Outcome depth (WrittenType.nestingAll bases) (headerOf depth keyword ts)
      (· = (some ⟨⟨.identifier, name, p⟩, kind, typeParameters, bases⟩, rest)) := by
  obtain ⟨mid, parameters, bases_spelled⟩ := spells_append.1 spelled
  have plain : startsWith "<" mid = false ∧ startsWith "(" mid = false := by
    cases bases with
    | nil =>
      obtain rfl := spells_nil.1 bases_spelled
      obtain ⟨q, vs, rfl⟩ := startsWith_eq_cons opened
      simp
    | cons base bases =>
      constructor <;> exact startsWith_of_spells_mark bases_spelled
  have listed := readTypeParameterList_spelled named parameters plain.1
  have unparametrised : skipParameters mid = mid := by
    rw [skipParameters, if_neg (by simp [plain.2])]
  rw [headerOf_eq, kinded]
  dsimp only
  rw [if_pos (by simp), listed]
  dsimp only
  rw [unparametrised]
  refine Outcome.map shallow (baseListOf_spelled shallow bases_spelled opened) ?_
  rintro _ rfl
  obtain ⟨q, vs, rfl⟩ := startsWith_eq_cons opened
  exact ⟨_, rfl, by simp [endsHead]⟩

/-- Neither a semicolon nor an equals sign follows. -/
def startsAnew (ts : List Token) : Bool :=
  !startsWithMark [";", "="] ts

theorem startsAnew_of_spells_word {text : String} {more : List Lexeme}
    (spelled : Spells (word text :: more) ts rest) : startsAnew ts = true := by
  simp [startsAnew, startsWithMark, startsWith_of_spells_word spelled]

theorem startsWith_of_startsAnew (anew : startsAnew rest = true) :
    startsWith ";" rest = false ∧ startsWith "=" rest = false := by
  simpa [startsAnew, startsWithMark] using anew

theorem member_lexemes_starts (style : AccessorStyle) (owner : DeclarationKind)
    (m : MemberDeclaration) : ∃ first more, m.lexemes style owner = word first :: more := by
  rw [MemberDeclaration.lexemes]
  cases m.accessibility <;> exact ⟨_, _, rfl⟩

/-- Behind something that a word starts, a body goes on with its modifiers. -/
theorem bodyOf_of_spells_word {qualifier : Option String} {owner : Owner} {found : TypeBody}
    {text : String} {more : List Lexeme} (spelled : Spells (word text :: more) ts rest) :
    bodyOf depth qualifier owner found ts =
      bodyItemOf depth qualifier owner found (readModifiers ts).1 (readModifiers ts).2 := by
  obtain ⟨p, us, rfl, -⟩ := spells_cons.1 spelled
  rw [bodyOf_cons, if_neg (by simp [word]), if_neg (by simp [word]), if_neg (by simp [word])]

/-- The members of one list are those of another, wherever their names stand. -/
def SameMembers (a b : List MemberDeclaration) : Prop :=
  a.map (·.unplaced) = b.map (·.unplaced)

/-- Members are added to a body, one after another. -/
theorem bodyOf_members {style : AccessorStyle} {qualifier : Option String} {owner : Owner}
    {members : List MemberDeclaration} {n : Nat} {P : TypeBody × List Token → Prop}
    (shallow : depth ≤ maxNesting) (writable : members.all (·.isWritable owner.kind) = true)
    (spelled : Spells (members.flatMap (·.lexemes style owner.kind)) ts mid)
    (anew : startsAnew mid = true) (found : TypeBody)
    (behind : ∀ read : List MemberDeclaration, SameMembers read members →
      Outcome depth n (bodyOf depth qualifier owner ⟨read.reverse ++ found.members, found.nested⟩ mid)
        P) :
    Outcome depth n (bodyOf depth qualifier owner found ts) P := by
  induction members generalizing ts found with
  | nil =>
    obtain rfl := spells_nil.1 spelled
    exact behind [] rfl
  | cons m members ih =>
    rw [List.flatMap_cons] at spelled
    rw [List.all_cons, Bool.and_eq_true] at writable
    obtain ⟨us, member, spelled⟩ := spells_append.1 spelled
    have anew : startsAnew us = true := by
      cases members with
      | nil =>
        obtain rfl := spells_nil.1 spelled
        exact anew
      | cons next members =>
        obtain ⟨first, more, starts⟩ := member_lexemes_starts style owner.kind next
        rw [List.flatMap_cons, starts] at spelled
        exact startsAnew_of_spells_word spelled
    obtain ⟨type, p, vs, typed, modified, read⟩ :=
      readMember_spelled shallow writable.1 member (startsWith_of_startsAnew anew).2
    have plain : startsDeclaration (⟨.identifier, type, p⟩ :: vs) = false := by
      simp only [List.mem_cons, List.not_mem_nil, or_false] at typed
      rcases typed with rfl | rfl <;> simp [startsDeclaration]
    obtain ⟨first, more, starts⟩ := member_lexemes_starts style owner.kind m
    rw [starts] at member
    rw [bodyOf_of_spells_word member, modified, bodyItemOf, if_neg (by simp),
      if_neg (by simp [plain]), ← Nat.zero_max n]
    refine Outcome.bind read ?_
    rintro ⟨one, left⟩ ⟨same, rfl⟩
    refine ih writable.2 spelled (found.addMembers one) fun read others => ?_
    have added : SameMembers (one ++ read) (m :: members) := by
      rw [SameMembers, List.map_append, others, show one.map (·.unplaced) = [m.unplaced] from same]
      rfl
    have all := behind (one ++ read) added
    rwa [List.reverse_append, List.append_assoc] at all

theorem declaration_lexemes_starts (style : AccessorStyle) (d : TypeDeclaration) :
    ∃ first more, d.lexemes style = word first :: more ∧
      first ∉ ["using", "namespace", "global"] := by
  obtain ⟨name, kind, qualifier, typeParameters, baseList, members, nested, position, isPartial⟩ := d
  rw [TypeDeclaration.lexemes]
  cases isPartial <;> cases kind <;> exact ⟨_, _, rfl, by decide⟩

/-- A declaration behind its modifiers and keyword, and the tokens before these. -/
def ReadsAs (depth : Nat) (d : TypeDeclaration) (ts rest : List Token) : Prop :=
  ∃ modifiers keyword p us, readModifiers ts = (modifiers, ⟨.identifier, keyword, p⟩ :: us) ∧
    startsDeclaration (⟨.identifier, keyword, p⟩ :: us) = true ∧
    Outcome depth d.nesting (declarationOf depth d.qualifier modifiers keyword us) fun read =>
      ∃ found, read = (some found, rest) ∧ found.unplaced = d.unplaced

theorem startsAnew_nested {style : AccessorStyle} {ds : List TypeDeclaration}
    (spelled : Spells (TypeDeclaration.lexemesAll style ds ++ [mark "\x7d"]) ts rest) :
    startsAnew ts = true := by
  cases ds with
  | nil =>
    rw [TypeDeclaration.lexemesAll, List.nil_append] at spelled
    simp [startsAnew, startsWithMark, startsWith_of_spells_mark spelled]
  | cons d ds =>
    obtain ⟨first, more, starts, -⟩ := declaration_lexemes_starts style d
    rw [TypeDeclaration.lexemesAll, starts] at spelled
    exact startsAnew_of_spells_word spelled

theorem unplacedAll_eq_map (ds : List TypeDeclaration) :
    TypeDeclaration.unplacedAll ds = ds.map (·.unplaced) := by
  induction ds with
  | nil => rfl
  | cons d ds ih => rw [TypeDeclaration.unplacedAll, ih, List.map_cons]

/-- What was read of a body is what was written, wherever the names stand. -/
def IsBody (members : List MemberDeclaration) (nested : List TypeDeclaration) (rest : List Token)
    (read : TypeBody × List Token) : Prop :=
  SameMembers read.1.members members ∧
    TypeDeclaration.unplacedAll read.1.nested = TypeDeclaration.unplacedAll nested ∧ read.2 = rest

mutual

theorem declaration_spelled (style : AccessorStyle) :
    ∀ {d : TypeDeclaration} {depth : Nat} {ts rest : List Token},
    d.isWritable = true → depth ≤ maxNesting → Spells (d.lexemes style) ts rest →
    startsAnew rest = true → ReadsAs depth d ts rest
  | ⟨name, kind, qualifier, typeParameters, baseList, members, nested, position, isPartial⟩,
    depth, ts, rest, writable, shallow, spelled, anew => by
    simp only [TypeDeclaration.isWritable, Bool.and_eq_true] at writable
    obtain ⟨⟨⟨⟨named, parameters⟩, -⟩, members_writable⟩, nested_writable⟩ := writable
    rw [TypeDeclaration.lexemes] at spelled
    obtain ⟨_, start, named_spelled⟩ := spells_append.1 spelled
    obtain ⟨ks, modified, keywords⟩ := spells_append.1 start
    obtain ⟨p, us, rfl, head_spelled⟩ := spells_cons.1 named_spelled
    obtain ⟨mid, head, body_spelled⟩ := spells_append.1 head_spelled
    obtain ⟨keyword, q, vs, rfl, listed, starts, kinded⟩ := declarationKind_spelled named keywords
    have opened : startsWith "\x7b" mid = true := by simp [startsWith_of_spells_mark body_spelled]
    obtain ⟨r, ws, rfl, inside⟩ := spells_cons.1 body_spelled
    obtain ⟨ns, members_spelled, nested_spelled⟩ := spells_append.1 inside
    have plain : keyword ∉ modifierWords := by
      simp only [List.mem_cons, List.not_mem_nil, or_false] at listed
      rcases listed with rfl | rfl | rfl | rfl <;> decide
    refine ⟨if isPartial then ["partial"] else [], keyword, q, vs,
      readModifiers_spelled (by cases isPartial <;> decide) modified ⟨keyword, q, vs, rfl, plain⟩,
      starts, ?_⟩
    rw [declarationOf_eq, TypeDeclaration.nesting]
    refine Outcome.bind (headerOf_spelled shallow kinded parameters head opened) ?_
    rintro _ rfl
    dsimp only
    rw [if_pos opened]
    refine Outcome.enter shallow fun shallow => ?_
    have body : Outcome (depth + 1) (TypeDeclaration.nestingAll nested)
        (bodyOf (depth + 1) qualifier ⟨name, kind⟩ .empty ws) (IsBody members nested rest) := by
      refine bodyOf_members shallow members_writable members_spelled
        (startsAnew_nested nested_spelled) .empty fun read same => ?_
      refine (bodyOf_nested style ⟨name, kind⟩ _ nested_writable shallow nested_spelled).mono ?_
      rintro ⟨body, left⟩ ⟨members_read, nested_read, rfl⟩
      rw [SameMembers, TypeBody.empty, List.append_nil, List.reverse_reverse] at members_read
      exact ⟨members_read.trans same, nested_read, rfl⟩
    refine Outcome.map shallow body ?_
    rintro ⟨read, left⟩ ⟨same, inner, rfl⟩
    have unended : skipOne ";" left = left := by
      rw [skipOne, if_neg (by simp [(startsWith_of_startsAnew anew).1])]
    refine ⟨_, rfl, _, by rw [unended], ?_⟩
    rw [SameMembers] at same
    simp only [Header.declare, TypeDeclaration.unplaced, same, inner]
    cases isPartial <;> rfl

theorem bodyOf_nested (style : AccessorStyle) :
    ∀ {ds : List TypeDeclaration} {depth : Nat} {ts rest : List Token} {qualifier : Option String}
    (owner : Owner) (found : TypeBody), TypeDeclaration.isWritableAll qualifier ds = true →
    depth ≤ maxNesting → Spells (TypeDeclaration.lexemesAll style ds ++ [mark "\x7d"]) ts rest →
    Outcome depth (TypeDeclaration.nestingAll ds) (bodyOf depth qualifier owner found ts)
      (IsBody found.members.reverse (found.nested.reverse ++ ds) rest)
  | [], depth, ts, rest, qualifier, owner, found, writable, shallow, spelled => by
    rw [TypeDeclaration.lexemesAll, List.nil_append] at spelled
    obtain ⟨p, us, rfl, ended⟩ := spells_cons.1 spelled
    obtain rfl := spells_nil.1 ended
    rw [bodyOf_cons, if_pos (by simp [mark])]
    exact .ok shallow ⟨rfl, by simp [TypeBody.inOrder], rfl⟩
  | d :: ds, depth, ts, rest, qualifier, owner, found, writable, shallow, spelled => by
    simp only [TypeDeclaration.isWritableAll, Bool.and_eq_true, decide_eq_true_eq] at writable
    obtain ⟨⟨writable, rfl⟩, others_writable⟩ := writable
    rw [TypeDeclaration.lexemesAll, List.append_assoc] at spelled
    obtain ⟨mid, first, others⟩ := spells_append.1 spelled
    obtain ⟨modifiers, keyword, p, us, modified, starts, read⟩ :=
      declaration_spelled style writable shallow first (startsAnew_nested others)
    obtain ⟨start, more, begins, -⟩ := declaration_lexemes_starts style d
    rw [begins] at first
    rw [bodyOf_of_spells_word first, modified, bodyItemOf, if_neg (by simp), if_pos starts,
      TypeDeclaration.nestingAll]
    refine Outcome.bind read ?_
    rintro _ ⟨inner, rfl, same⟩
    have later := bodyOf_nested style owner (found.addNested (some inner)) others_writable shallow
      others
    refine later.mono ?_
    rintro ⟨body, left⟩ ⟨members, nested, rfl⟩
    refine ⟨members, ?_, rfl⟩
    rw [nested]
    simp [TypeBody.addNested, unplacedAll_eq_map, same]

end

end

end ConventionLint.Source
