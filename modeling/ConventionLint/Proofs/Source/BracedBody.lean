import ConventionLint.Proofs.Source.TypedMember

/-!
# Bodies in braces

A method with a block for its body, and a property with its accessors in braces and perhaps an
initialiser behind them. One member is read from either, and nothing of it is left behind: parameters,
statements, the bodies of accessors and the initialiser may be whatever tokens they like.
-/
namespace ConventionLint.Source

/-- What stands behind the keyword of an accessor: a semicolon, or a block or expression for its
body. The flag tells whether there is a body. -/
inductive IsAccessorBody : List Token → Bool → Prop
  | semicolon {t : Token} : t.isPunctuation ";" = true → IsAccessorBody [t] false
  | block {o c : Token} {inner : List Token} : o.isPunctuation "\x7b" = true → Balanced inner →
      c.isPunctuation "\x7d" = true → IsAccessorBody (o :: (inner ++ [c])) true
  | expression {arrow semicolon : Token} {e : List Token} : arrow.isPunctuation "=>" = true →
      Balanced e → Unterminated e → semicolon.isPunctuation ";" = true →
      IsAccessorBody (arrow :: (e ++ [semicolon])) true

structure AccessorTokens where
  modifiers : List Token
  keyword : Token
  kind : AccessorKeyword
  body : List Token
  hasBody : Bool
  modifiers_mem : ∀ t ∈ modifiers, t.isIdentifier = true ∧ t.text ∈ modifierWords
  keyword_eq : keyword.isWord kind.text = true
  isBody : IsAccessorBody body hasBody

namespace AccessorTokens

def tokens (a : AccessorTokens) : List Token :=
  a.modifiers ++ a.keyword :: a.body

def accessor (a : AccessorTokens) : Accessor :=
  ⟨Accessibility.ofModifiers (a.modifiers.map (·.text)), a.kind, a.hasBody⟩

end AccessorTokens

section

variable {property : Accessibility} {found : Accessors} {t keyword equals semicolon : Token}
  {ts e body rest behind : List Token} {modifiers : List String} {hasBody : Bool}

theorem skipAccessorBody_append (isBody : IsAccessorBody body hasBody) (rest : List Token) :
    skipAccessorBody (body ++ rest) = (!hasBody, rest) := by
  cases isBody with
  | semicolon is => simp [skipAccessorBody, is]
  | @block o c inner opening inside closing =>
    have matching : o.isClosedBy c = true := by simp [Token.isClosedBy, opening, closing]
    have behind : skipBalanced (o :: (inner ++ c :: rest)) = rest :=
      skipGroup_closed inside matching rest
    simp [skipAccessorBody, Token.isPunctuation_eq_false opening, opening, behind]
  | @expression arrow semicolon e is balanced unterminated ends =>
    obtain ⟨opens, closes⟩ := Token.plain_of_isPunctuation is (by decide)
    have behind : skipStatement 0 (arrow :: (e ++ semicolon :: rest)) = rest := by
      rw [skipStatement_plain opens closes (Token.isPunctuation_eq_false is (by decide)),
        skipStatement_unterminated balanced unterminated ends]
    simp [skipAccessorBody, Token.isPunctuation_eq_false is, is, behind]

/-- An accessor is read by its modifiers and its keyword. -/
theorem readAccessors_of_readModifiers (word : startsWithIdentifier ts = true)
    (modified : readModifiers ts = (modifiers, keyword :: body))
    (named : keyword.isIdentifier = true) :
    readAccessors property found ts = readAccessors property
      (found.add keyword.text ((Accessibility.ofModifiers modifiers).getD property)
        (skipAccessorBody body).1) (skipAccessorBody body).2 := by
  cases ts with
  | nil => cases word
  | cons t ts =>
    have unmarked (text : String) : t.isPunctuation text = false :=
      Token.isPunctuation_of_isIdentifier word text
    rw [readAccessors_cons, if_neg (by simp [unmarked]), if_neg (by simp [unmarked]), modified]
    simp only [named, ↓reduceIte]

namespace AccessorTokens

variable (a : AccessorTokens)

theorem readModifiers_eq (behind : List Token) :
    readModifiers (a.modifiers ++ a.keyword :: behind) =
      (a.modifiers.map (·.text), a.keyword :: behind) := by
  have keyword_eq := a.keyword_eq
  simp only [Token.isWord, Bool.and_eq_true, decide_eq_true_eq] at keyword_eq
  refine readModifiers_spelled ?_ ⟨a.modifiers, rfl, ?_⟩ ⟨a.keyword.text, a.keyword.position, behind,
    ?_, ?_⟩
  · intro text member
    obtain ⟨t, listed, rfl⟩ := List.mem_map.1 member
    exact (a.modifiers_mem t listed).2
  · rw [Lexeme.words, List.map_map]
    refine List.map_congr_left fun t listed => ?_
    have word := (a.modifiers_mem t listed).1
    simp only [Token.isIdentifier, decide_eq_true_eq] at word
    simp [Token.lexeme, Lexeme.word, word]
  · rw [← keyword_eq.1]
  · rw [keyword_eq.2]
    cases a.kind <;> decide

theorem startsWithIdentifier_tokens (behind : List Token) :
    startsWithIdentifier (a.tokens ++ behind) = true := by
  have keyword_eq := a.keyword_eq
  simp only [Token.isWord, Bool.and_eq_true, decide_eq_true_eq] at keyword_eq
  cases shape : a.modifiers with
  | nil => simp [tokens, shape, Token.isIdentifier, keyword_eq]
  | cons t modifiers =>
    have word := (a.modifiers_mem t (by simp [shape])).1
    simp [tokens, shape, word]

/-- One accessor is read, and no token of its body. -/
theorem readAccessors_append (rest : List Token) :
    readAccessors property found (a.tokens ++ rest) =
      readAccessors property (addAccessor property found a.accessor) rest := by
  have keyword_eq := a.keyword_eq
  simp only [Token.isWord, Bool.and_eq_true, decide_eq_true_eq] at keyword_eq
  have modified : readModifiers (a.tokens ++ rest) =
      (a.modifiers.map (·.text), a.keyword :: (a.body ++ rest)) := by
    rw [tokens, List.append_assoc, List.cons_append, a.readModifiers_eq]
  rw [readAccessors_of_readModifiers (a.startsWithIdentifier_tokens rest) modified
    (by simp [Token.isIdentifier, keyword_eq]), skipAccessorBody_append a.isBody, keyword_eq.2]
  rfl

end AccessorTokens

/-- All accessors are read, up to the brace behind them. -/
theorem readAccessors_flatMap (accessors : List AccessorTokens) {close : Token}
    (closing : close.isPunctuation "\x7d" = true) :
    readAccessors property found (accessors.flatMap (·.tokens) ++ close :: rest) =
      ((accessors.map (·.accessor)).foldl (addAccessor property) found, rest) := by
  induction accessors generalizing found with
  | nil =>
    rw [List.flatMap_nil, List.nil_append, readAccessors_cons, if_pos closing]
    rfl
  | cons a accessors ih =>
    rw [List.flatMap_cons, List.append_assoc, a.readAccessors_append, ih, List.map_cons,
      List.foldl_cons]

end

/-- What may stand behind the accessors of a property: an initialiser, or nothing where `rest` does not
look like one. -/
inductive EndsProperty (rest : List Token) : List Token → Prop
  | bare : startsWith "=" rest = false → EndsProperty rest []
  | initialized {equals semicolon : Token} {e : List Token} : equals.isPunctuation "=" = true →
      Balanced e → Unterminated e → semicolon.isPunctuation ";" = true →
      EndsProperty rest (equals :: (e ++ [semicolon]))

def IsStored (owner : Owner) (modifiers : List String) (accessors : List AccessorTokens) : Prop :=
  accessors ≠ [] ∧ (∀ a ∈ accessors, a.hasBody = false) ∧ owner.kind ≠ .interface ∧
    "abstract" ∉ modifiers ∧ "extern" ∉ modifiers

instance (owner : Owner) (modifiers : List String) (accessors : List AccessorTokens) :
    Decidable (IsStored owner modifiers accessors) :=
  inferInstanceAs (Decidable (_ ∧ _))

/-- The setter that the last accessor to be one gives a property. -/
def lastSetter (property : Accessibility) (accessors : List AccessorTokens) : Option Setter :=
  (accessors.filterMap (·.accessor.setter? property)).getLast?

/-- What stands behind the name of a member with a body in braces, and before `rest`, tells the kind
of the member. -/
inductive HasBody (owner : Owner) (modifiers : List String) (rest : List Token) :
    List Token → MemberDeclarationKind → Prop
  | method {o c opening closing : Token} {parameters statements : List Token} :
      o.isPunctuation "(" = true → Balanced parameters → c.isPunctuation ")" = true →
      opening.isPunctuation "\x7b" = true → Balanced statements →
      closing.isPunctuation "\x7d" = true → startsWithMark [";", "="] rest = false →
      HasBody owner modifiers rest
        (o :: (parameters ++ c :: opening :: (statements ++ [closing]))) .method
  | property {opening closing : Token} {accessors : List AccessorTokens}
    {initializer : List Token} :
      opening.isPunctuation "\x7b" = true → closing.isPunctuation "\x7d" = true →
      EndsProperty rest initializer →
      HasBody owner modifiers rest
        (opening :: (accessors.flatMap (·.tokens) ++ closing :: initializer))
        (.property
          (lastSetter ((Accessibility.ofModifiers modifiers).getD owner.defaultAccessibility)
            accessors)
          (decide (IsStored owner modifiers accessors)))

section

variable {owner : Owner} {modifiers : List String} {depth : Nat} {head : MemberHead} {name : Token}
  {kind : MemberDeclarationKind} {property : Accessibility} {initializer body rest : List Token}

theorem EndsProperty.skip_eq (ends : EndsProperty rest initializer) :
    (if startsWith "=" (initializer ++ rest) then skipStatement 0 (initializer ++ rest)
      else initializer ++ rest) = rest := by
  cases ends with
  | bare other => simp [other]
  | @initialized equals semicolon e is balanced unterminated closes =>
    obtain ⟨opening, closing⟩ := Token.plain_of_isPunctuation is (by decide)
    rw [List.cons_append, List.append_assoc, List.singleton_append, startsWith_cons, if_pos is,
      skipStatement_plain opening closing (Token.isPunctuation_eq_false is (by decide)),
      skipStatement_unterminated balanced unterminated closes]

theorem readAccessorList_append (accessors : List AccessorTokens) {opening closing : Token}
    (closes : closing.isPunctuation "\x7d" = true) (ends : EndsProperty rest initializer) :
    readAccessorList property
        (opening :: (accessors.flatMap (·.tokens) ++ closing :: (initializer ++ rest))) =
      ((accessors.map (·.accessor)).foldl (addAccessor property) .none, rest) := by
  rw [readAccessorList, List.tail_cons, readAccessors_flatMap accessors closes]
  dsimp only
  rw [ends.skip_eq]

theorem setter_accessors (accessors : List AccessorTokens) :
    ((accessors.map (·.accessor)).foldl (addAccessor property) .none).setter =
      lastSetter property accessors := by
  rw [setter_foldl, List.filterMap_map, lastSetter]
  exact Option.or_none

theorem auto_accessors (accessors : List AccessorTokens) :
    (((accessors.map (·.accessor)).foldl (addAccessor property) .none).auto &&
        !(owner.kind = .interface || modifiers.contains "abstract" ||
          modifiers.contains "extern")) =
      decide (IsStored owner modifiers accessors) := by
  rw [Bool.eq_iff_iff, Bool.and_eq_true, auto_foldl, decide_eq_true_eq, IsStored]
  simp [Accessors.none, AccessorTokens.accessor, and_assoc]

theorem HasBody.startsWithMark_eq (hasBody : HasBody owner modifiers rest body kind) :
    startsWithMark ["<", "."] (body ++ rest) = false := by
  cases hasBody with
  | method is => simp [startsWithMark, Token.isPunctuation_eq_false is]
  | property is => simp [startsWithMark, Token.isPunctuation_eq_false is]

/-- What stands behind the name is read as the body that it is. -/
theorem HasBody.readNamedMember_eq (hasBody : HasBody owner modifiers rest body kind) :
    readNamedMember owner modifiers name false (body ++ rest) =
      ([⟨name.text, kind, (Accessibility.ofModifiers modifiers).getD owner.defaultAccessibility,
        name.position⟩], rest) := by
  cases hasBody with
  | @method o c opening closing parameters statements opens inside closes opens' inside' closes'
      ends =>
    have round : o.isClosedBy c = true := by simp [Token.isClosedBy, opens, closes]
    have curly : opening.isClosedBy closing = true := by simp [Token.isClosedBy, opens', closes']
    have ended : (startsWith ";" rest || startsWith "=" rest) = false := by
      simpa [startsWithMark] using ends
    have skipped :
        skipMember 0 (o :: (parameters ++ c :: opening :: (statements ++ closing :: rest)))
        = rest := by
      rw [skipMember_group round inside (Token.isPunctuation_eq_false opens (by decide)),
        skipMember_block curly inside' opens', if_neg (by simp [ended])]
    simp [readNamedMember, opens, skipped]
  | @property opening closing accessors initializer opens closes ends =>
    have other : opening.isPunctuation "(" = false :=
      Token.isPunctuation_eq_false opens (by decide)
    rw [List.cons_append, List.append_assoc, List.cons_append, readNamedMember]
    simp only [startsWith_cons, other, opens,
      readAccessorList_append accessors closes ends, setter_accessors, auto_accessors, Bool.or_self,
      Bool.false_eq_true, ↓reduceIte]

/-- A member with a body in braces is read as the one member it is, and its tokens are left behind,
`rest` alone remaining. -/
theorem readMember_hasBody (typed : head.IsTyped depth (body ++ rest))
    (hasBody : HasBody owner modifiers rest body kind) :
    readMember owner depth modifiers (head.tokens (body ++ rest)) =
      .ok ([head.declaration owner modifiers kind], rest) := by
  rw [MemberHead.readMember_eq typed hasBody.startsWithMark_eq, hasBody.readNamedMember_eq]
  rfl

end

section

open Lexeme

/-- `class X { ; }` -/
def classText : List Token :=
  (word "class").token :: (word "X").token :: (mark "\x7b").token ::
    ([(mark ";").token] ++ (mark "\x7d").token :: [])

theorem balanced_classText : Balanced classText :=
  .plain rfl rfl <| .plain rfl rfl <| .group rfl (.plain rfl rfl .nil) .nil

theorem unterminated_classText : Unterminated classText := by
  rw [classText, unterminated_plain rfl rfl, unterminated_plain rfl rfl,
    unterminated_group rfl (.plain rfl rfl .nil)]
  exact ⟨rfl, rfl, unterminated_nil⟩

/-- `get => class X { ; };` and `protected internal set { class X { ; } }` -/
def classAccessors : List AccessorTokens :=
  [{ modifiers := []
     keyword := (word "get").token
     kind := .get
     body := (mark "=>").token :: (classText ++ [(mark ";").token])
     hasBody := true
     modifiers_mem := by simp
     keyword_eq := by decide
     isBody := .expression rfl balanced_classText unterminated_classText rfl },
   { modifiers := [(word "protected").token, (word "internal").token]
     keyword := (word "set").token
     kind := .set
     body := (mark "\x7b").token :: (classText ++ [(mark "\x7d").token])
     hasBody := true
     modifiers_mem := by decide
     keyword_eq := by decide
     isBody := .block rfl balanced_classText rfl }]

/-- The accessors in braces, and `= class X { ; };` behind them. -/
def classBody : List Token :=
  (mark "\x7b").token :: (classAccessors.flatMap (·.tokens) ++ (mark "\x7d").token ::
    (mark "=").token :: (classText ++ [(mark ";").token]))

theorem hasBody_classBody (rest : List Token) :
    HasBody ⟨"A", .plainClass⟩ ["public"] rest classBody
      (.property (some ⟨.protectedInternal, false⟩) false) :=
  .property rfl rfl (.initialized rfl balanced_classText unterminated_classText rfl)

/-- `bool Open` -/
def propertyHead : MemberHead :=
  ⟨[(word "bool").token], (word "Open").token, by decide, by decide⟩

theorem readMember_hasBody_classBody :
    propertyHead.IsTyped 0 (classBody ++ [(mark "\x7d").token]) ∧
      HasBody ⟨"A", .plainClass⟩ ["public"] [(mark "\x7d").token] classBody
        (.property (some ⟨.protectedInternal, false⟩) false) ∧
      readMember ⟨"A", .plainClass⟩ 0 ["public"]
          (propertyHead.tokens (classBody ++ [(mark "\x7d").token])) =
        .ok ([⟨"Open", .property (some ⟨.protectedInternal, false⟩) false, .publicAccess, .start⟩],
          [(mark "\x7d").token]) := by
  have typed : propertyHead.IsTyped 0 (classBody ++ [(mark "\x7d").token]) :=
    ⟨_, typeOf_word "bool" "Open" _⟩
  have hasBody := hasBody_classBody [(mark "\x7d").token]
  exact ⟨typed, hasBody, readMember_hasBody typed hasBody⟩

end

end ConventionLint.Source
