import ConventionLint.Proofs.Source.Outcome

/-!
# Written texts

Whatever is written of a file whose names are names can be lexed: every lexeme is a word or one of
the marks that the lexer takes for punctuation.
-/
namespace ConventionLint.Source

open Lexeme

theorem isPlain_of_isName {name : String} (named : isName name = true) :
    (word name).isPlain = true := by
  rw [isName, Bool.and_eq_true] at named
  exact named.1

@[simp] theorem isPlain_marks : (mark ".").isPlain = true ∧ (mark ";").isPlain = true ∧
    (mark "=").isPlain = true ∧ (mark "<").isPlain = true ∧ (mark ">").isPlain = true ∧
    (mark ",").isPlain = true ∧ (mark ":").isPlain = true ∧ (mark "\x7b").isPlain = true ∧
    (mark "\x7d").isPlain = true ∧ (mark "(").isPlain = true ∧ (mark ")").isPlain = true := by
  decide

/-- Words with a mark before each. -/
theorem isPlain_listed {names : List String} (text : String)
    (words : ∀ name ∈ names, (word name).isPlain = true) (plain : (mark text).isPlain = true) :
    (names.flatMap fun name => [mark text, word name]).all (·.isPlain) = true := by
  rw [List.all_flatMap]
  refine List.all_eq_true.2 fun name member => ?_
  simp [plain, words name member]

theorem isPlain_dotted_of_words {names : List String}
    (words : ∀ name ∈ names, (word name).isPlain = true) :
    (dotted names).all (·.isPlain) = true := by
  cases names with
  | nil => rfl
  | cons first more =>
    have behind := isPlain_listed "." (fun name later => words name (List.mem_cons_of_mem _ later))
      (by decide)
    rw [dotted, List.all_cons, words first (by simp), behind]
    rfl

theorem isPlain_of_all_isName {names : List String} (named : names.all isName = true) :
    ∀ name ∈ names, (word name).isPlain = true := fun name member =>
  isPlain_of_isName (List.all_eq_true.1 named name member)

theorem isPlain_dotted {names : List String} (named : names.all isName = true) :
    (dotted names).all (·.isPlain) = true :=
  isPlain_dotted_of_words (isPlain_of_all_isName named)

mutual

theorem isPlain_type : ∀ {type : WrittenType}, type.isWritable = true →
    type.lexemes.all (·.isPlain) = true
  | ⟨qualifier, name, []⟩, writable => by
    rw [WrittenType.isWritable, Bool.and_eq_true] at writable
    rw [WrittenType.lexemes]
    exact isPlain_dotted writable.1
  | ⟨qualifier, name, first :: more⟩, writable => by
    simp only [WrittenType.isWritable, WrittenType.isWritableAll, Bool.and_eq_true] at writable
    simp [WrittenType.lexemes, isPlain_dotted writable.1, isPlain_type writable.2.1,
      isPlain_types writable.2.2]

theorem isPlain_types : ∀ {types : List WrittenType}, WrittenType.isWritableAll types = true →
    (WrittenType.lexemesBehind types).all (·.isPlain) = true
  | [], _ => rfl
  | type :: types, writable => by
    rw [WrittenType.isWritableAll, Bool.and_eq_true] at writable
    simp [WrittenType.lexemesBehind, isPlain_type writable.1, isPlain_types writable.2]

end

theorem isPlain_accessibility (a : Accessibility) : (words a.words).all (·.isPlain) = true := by
  cases a <;> decide

theorem isPlain_accessor (a : Accessor) : a.lexemes.all (·.isPlain) = true := by
  obtain ⟨accessibility, keyword, hasBody⟩ := a
  have accessible : (words ((accessibility.map (·.words)).getD [])).all (·.isPlain) = true := by
    cases accessibility with
    | none => rfl
    | some accessibility => exact isPlain_accessibility accessibility
  have keyed : (word keyword.text).isPlain = true := by cases keyword <;> decide
  cases hasBody <;> simp [Accessor.lexemes, accessible, keyed]

theorem isPlain_member (style : AccessorStyle) {owner : DeclarationKind} {m : MemberDeclaration}
    (writable : m.isWritable owner = true) : (m.lexemes style owner).all (·.isPlain) = true := by
  rw [MemberDeclaration.isWritable, Bool.and_eq_true] at writable
  have typed : (word m.typeWord).isPlain = true := by
    rw [MemberDeclaration.typeWord]
    split <;> decide
  have behind : (m.lexemesBehindName style owner).all (·.isPlain) = true := by
    rw [MemberDeclaration.lexemesBehindName]
    split
    · rfl
    · rfl
    · simp [List.all_flatMap, isPlain_accessor]
  rw [MemberDeclaration.lexemes, List.all_append, isPlain_accessibility, List.all_cons,
    List.all_cons, typed, isPlain_of_isName writable.1, behind]
  rfl

theorem isPlain_typeParameters {names : List String} (named : names.all isName = true) :
    (TypeDeclaration.typeParameterLexemes names).all (·.isPlain) = true := by
  cases names with
  | nil => rfl
  | cons first more =>
    rw [List.all_cons, Bool.and_eq_true] at named
    simp [TypeDeclaration.typeParameterLexemes, isPlain_of_isName named.1,
      isPlain_listed "," (isPlain_of_all_isName named.2) (by decide)]

theorem isPlain_bases {types : List WrittenType} (writable : WrittenType.isWritableAll types = true) :
    (TypeDeclaration.baseLexemes types).all (·.isPlain) = true := by
  cases types with
  | nil => rfl
  | cons first more =>
    rw [WrittenType.isWritableAll, Bool.and_eq_true] at writable
    simp [TypeDeclaration.baseLexemes, isPlain_type writable.1, isPlain_types writable.2]

mutual

theorem isPlain_declaration (style : AccessorStyle) : ∀ {d : TypeDeclaration},
    d.isWritable = true → (d.lexemes style).all (·.isPlain) = true
  | ⟨name, kind, qualifier, typeParameters, baseList, members, nested, _, isPartial⟩, writable => by
    simp only [TypeDeclaration.isWritable, Bool.and_eq_true] at writable
    obtain ⟨⟨⟨⟨named, parameters⟩, bases⟩, members_writable⟩, nested_writable⟩ := writable
    have partial_ : (words (if isPartial then ["partial"] else [])).all (·.isPlain) = true := by
      cases isPartial <;> decide
    have keywords : (words kind.keywords).all (·.isPlain) = true := by cases kind <;> decide
    have members_plain : (members.flatMap (·.lexemes style kind)).all (·.isPlain) = true := by
      rw [List.all_flatMap]
      exact List.all_eq_true.2 fun m member =>
        isPlain_member style (List.all_eq_true.1 members_writable m member)
    simp only [TypeDeclaration.lexemes, List.all_append, List.all_cons, partial_, keywords,
      isPlain_of_isName named, isPlain_typeParameters parameters, isPlain_bases bases, members_plain,
      isPlain_declarations style nested_writable, isPlain_marks, List.all_nil, Bool.and_self]

theorem isPlain_declarations (style : AccessorStyle) : ∀ {qualifier : Option String}
    {ds : List TypeDeclaration}, TypeDeclaration.isWritableAll qualifier ds = true →
    (TypeDeclaration.lexemesAll style ds).all (·.isPlain) = true
  | _, [], _ => rfl
  | qualifier, d :: ds, writable => by
    simp only [TypeDeclaration.isWritableAll, Bool.and_eq_true] at writable
    simp only [TypeDeclaration.lexemesAll, List.all_append, isPlain_declaration style writable.1.1,
      isPlain_declarations style writable.2, Bool.and_self]

end

theorem isPlain_file (style : AccessorStyle) {f : SourceFile} (writable : f.isWritable = true) :
    ∀ l ∈ f.lexemes style, l.isPlain = true := by
  simp only [SourceFile.isWritable, Bool.and_eq_true] at writable
  obtain ⟨⟨⟨imports, -⟩, aliases⟩, types⟩ := writable
  rw [← List.all_eq_true]
  simp only [SourceFile.lexemes, List.all_append, Bool.and_eq_true, List.all_flatMap]
  refine ⟨List.all_eq_true.2 fun name member => ?_, List.all_eq_true.2 fun a member => ?_,
    List.all_eq_true.2 fun d member => ?_⟩
  · have using_ : (word "using").isPlain = true := by decide
    simp [SourceFile.importLexemes, using_, isPlain_dotted (List.all_eq_true.1 imports name member)]
  · have using_ : (word "using").isPlain = true := by decide
    have writable := List.all_eq_true.1 aliases a member
    rw [UsingAlias.isWritable, Bool.and_eq_true] at writable
    simp [UsingAlias.lexemes, using_, isPlain_of_isName writable.1, isPlain_type writable.2]
  · have namespace_ : (word "namespace").isPlain = true := by decide
    have writable := List.all_eq_true.1 types d member
    rw [TypeDeclaration.isWritableInNamespace, Bool.and_eq_true] at writable
    have plain := isPlain_declaration style writable.1
    rw [TypeDeclaration.lexemesInNamespace]
    cases placed : d.qualifier with
    | none => exact plain
    | some qualifier =>
      rw [placed] at writable
      have named : (Text.segments qualifier).all isName = true := writable.2
      simp [namespace_, plain, isPlain_dotted named]

/-- The tokens of a written file spell what was written. -/
theorem tokens_of_written (style : AccessorStyle) {f : SourceFile} (writable : f.isWritable = true) :
    ∃ ts, tokens (f.written style) = .ok ts ∧ Spells (f.lexemes style) ts [] := by
  obtain ⟨ts, lexed, spelled⟩ := tokens_written (isPlain_file style writable)
  exact ⟨ts, lexed, ts, by simp, spelled⟩

end ConventionLint.Source
