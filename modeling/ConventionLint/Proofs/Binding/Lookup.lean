import ConventionLint.Binding.Reference

/-!
# The order of look-ups

A name that is neither a keyword nor a type parameter is bound to the first declared type in the
places its scope has for it, and to an external type when none of them has one. The places of a
simple name are the namespace at hand, those around it and the imported ones. A qualifier should
continue each of these in turn; instead it is first taken as it stands, and imports are left out.
-/
namespace ConventionLint

namespace Binding

def continued (qualifier ns : Option String) : Option String :=
  match qualifier with
  | some qualifier => some (Text.qualify ns qualifier)
  | none => ns

namespace Scope

variable (scope : Scope)

/-- The named namespaces around a scope, innermost first. -/
def enclosing : List String :=
  (Text.namespaceChain scope.qualifier).filterMap id

/-- The namespaces whose types are in sight: the one at hand, those around it, the imported ones. -/
def namespaces : List (Option String) :=
  Text.namespaceChain scope.qualifier ++ scope.imports.map some

/-- Where a name is looked for. -/
def places : Option String → List (Option String)
  | none => scope.namespaces
  | some qualifier =>
    some qualifier :: scope.enclosing.map fun ns => continued (some qualifier) (some ns)

/-- What a name stands for that is declared nowhere. -/
def elsewhere (t : WrittenType) : SymbolKey :=
  .external t.qualifier t.name t.arguments.length
    (if t.qualifier.isSome then [] else Text.sortedSet scope.imports)

def IsWord (t : WrittenType) : Prop :=
  t.qualifier = none ∧ t.arguments = [] ∧
    (t.name = "object" ∨ t.name ∈ keywordTypes.map (·.1) ∨ t.name ∈ scope.parameters.map (·.2))

instance (t : WrittenType) : Decidable (scope.IsWord t) :=
  match t with
  | ⟨none, name, []⟩ =>
    decidable_of_iff (name = "object" ∨ name ∈ keywordTypes.map (·.1) ∨
      name ∈ scope.parameters.map (·.2)) (by simp [IsWord])
  | ⟨some _, _, _⟩ => .isFalse (by simp [IsWord])
  | ⟨none, _, _ :: _⟩ => .isFalse (by simp [IsWord])

theorem namespaceChain_eq : Text.namespaceChain scope.qualifier
    = scope.enclosing.map some ++ [none] := by
  rw [enclosing]
  cases scope.qualifier with
  | none => rfl
  | some dotted =>
    simp [Text.namespaceChain, List.filterMap_append, List.filterMap_map, Function.comp_def]

end Scope

namespace Names

variable {n : Names} {scope : Scope} {t : WrittenType} {place qualifier : Option String}
  {name : String} {arity : Nat} {key : SymbolKey} {places : List (Option String)}

/-- The first declared type of a name and arity among places. -/
def first (n : Names) (places : List (Option String)) (name : String) (arity : Nat) :
    Option SymbolKey :=
  places.findSome? fun place => n.lookup place name arity

/-- What a name should be bound to: the first declared type in the namespaces in sight, each
continued by the qualifier. -/
def documented (n : Names) (scope : Scope) (t : WrittenType) : SymbolKey :=
  (n.first (scope.namespaces.map (continued t.qualifier)) t.name t.arguments.length).getD
    (scope.elsewhere t)

theorem lookup_eq_some_iff : n.lookup place name arity = some key ↔
    ⟨place, name, arity⟩ ∈ n.declared ∧ key = .declared ⟨place, name, arity⟩ := by
  simp [lookup, eq_comm]

theorem lookup_eq_none_iff : n.lookup place name arity = none ↔
    ⟨place, name, arity⟩ ∉ n.declared := by
  simp [lookup]

theorem first_eq_none_iff : n.first places name arity = none ↔
    ∀ place ∈ places, ⟨place, name, arity⟩ ∉ n.declared := by
  simp [first, lookup_eq_none_iff]

theorem exists_of_first (found : n.first places name arity = some key) :
    ∃ place ∈ places, n.lookup place name arity = some key :=
  List.exists_of_findSome?_eq_some found

/-- The root is declared or external. -/
theorem root_cases : n.lookup n.rootQualifier n.rootName 0 = some n.root ∨
    n.root = .external n.rootQualifier n.rootName 0 [] := by
  rw [root]
  cases n.lookup n.rootQualifier n.rootName 0 with
  | none => exact .inr rfl
  | some key => exact .inl rfl

theorem root_eq_external (unnamed : ∀ key ∈ n.declared, key.name ≠ n.rootName) :
    n.root = .external n.rootQualifier n.rootName 0 [] := by
  refine root_cases.resolve_left fun found => ?_
  exact unnamed _ (lookup_eq_some_iff.1 found).1 rfl

theorem bindWord_cases (word : n.bindWord scope name = some key) :
    key = n.root ∨ (∃ framework, key = .external (some "System") framework 0 []) ∨
      ∃ p ∈ scope.parameters, key = .parameter p.1 p.2 := by
  rw [bindWord] at word
  split at word
  · exact .inl (Option.some.inj word).symm
  · split at word
    · exact .inr (.inl ⟨_, (Option.some.inj word).symm⟩)
    · obtain ⟨p, found, rfl⟩ := Option.map_eq_some_iff.1 word
      exact .inr (.inr ⟨p, List.mem_of_find?_eq_some found, rfl⟩)

theorem bindWord_eq_none_iff : n.bindWord scope name = none ↔
    ¬ (name = "object" ∨ name ∈ keywordTypes.map (·.1) ∨ name ∈ scope.parameters.map (·.2)) := by
  rw [bindWord]
  split
  · next object => simp [object]
  · next other =>
    split
    · next framework found =>
      obtain ⟨before, behind, split, -⟩ := List.lookup_eq_some_iff.1 found
      simp [split]
    · next unknown =>
      have absent : name ∉ keywordTypes.map (·.1) := by
        intro listed
        obtain ⟨entry, present, rfl⟩ := List.mem_map.1 listed
        simpa using List.lookup_eq_none_iff.1 unknown entry present
      simp only [other, absent, false_or, Option.map_eq_none_iff, List.find?_eq_none]
      simpa using ⟨fun none owner inside => none owner name inside rfl,
        fun none owner _ inside same => none owner (same ▸ inside)⟩

theorem bind_of_word (word : n.bindWord scope name = some key) :
    n.bind scope ⟨none, name, []⟩ = key := by
  simp [bind, word]

theorem bind_eq_first (plain : ¬ scope.IsWord t) : n.bind scope t
    = (n.first (scope.places t.qualifier) t.name t.arguments.length).getD (scope.elsewhere t) := by
  obtain ⟨qualifier, name, arguments⟩ := t
  cases qualifier with
  | some qualifier =>
    have places : scope.places (some qualifier)
        = (qualifier :: scope.enclosing.map (· ++ "." ++ qualifier)).map some := by
      simp [Scope.places, continued, Text.qualify]
    rw [first, places, List.findSome?_map]
    rfl
  | none =>
    have word : (if arguments.isEmpty then n.bindWord scope name else none) = none := by
      split
      · next empty =>
        refine bindWord_eq_none_iff.2 fun listed => plain ⟨rfl, by simpa using empty, listed⟩
      · rfl
    rw [bind]
    dsimp only
    rw [word]
    rfl

/-- A name that no declared type has is external. -/
theorem bind_eq_elsewhere (plain : ¬ scope.IsWord t)
    (unnamed : ∀ key ∈ n.declared, key.name ≠ t.name) : n.bind scope t = scope.elsewhere t := by
  have none : n.first (scope.places t.qualifier) t.name t.arguments.length = none :=
    first_eq_none_iff.2 fun place _ declared => unnamed _ declared rfl
  rw [bind_eq_first plain, none, Option.getD_none]

/-- Everything that a written type may be bound to. -/
theorem bind_cases (n : Names) (scope : Scope) (t : WrittenType) :
    (t.arguments = [] ∧ (n.bind scope t = n.root ∨
      (∃ framework, n.bind scope t = .external (some "System") framework 0 []) ∨
      ∃ p ∈ scope.parameters, n.bind scope t = .parameter p.1 p.2)) ∨
    (∃ place, n.lookup place t.name t.arguments.length = some (n.bind scope t)) ∨
    n.bind scope t = scope.elsewhere t := by
  by_cases word : scope.IsWord t
  · obtain ⟨qualifier, name, arguments⟩ := t
    obtain ⟨rfl, rfl, listed⟩ := word
    obtain ⟨key, bound⟩ : ∃ key, n.bindWord scope name = some key :=
      Option.ne_none_iff_exists'.1 fun none => bindWord_eq_none_iff.1 none listed
    rw [bind_of_word bound]
    exact .inl ⟨rfl, bindWord_cases bound⟩
  · rw [bind_eq_first word]
    cases found : n.first (scope.places t.qualifier) t.name t.arguments.length with
    | none => exact .inr (.inr rfl)
    | some key =>
      obtain ⟨place, -, known⟩ := exists_of_first found
      exact .inr (.inl ⟨place, known⟩)

theorem first_append {places' : List (Option String)} : n.first (places ++ places') name arity
    = (n.first places name arity).or (n.first places' name arity) :=
  List.findSome?_append

theorem first_singleton : n.first [place] name arity = n.lookup place name arity := by
  rw [first, List.findSome?_cons]
  cases n.lookup place name arity <;> rfl

/-- A name is never bound to the same type in two places. -/
theorem place_eq_of_lookup {place' : Option String} (found : n.lookup place name arity = some key)
    (found' : n.lookup place' name arity = some key) : place = place' := by
  obtain ⟨-, rfl⟩ := lookup_eq_some_iff.1 found
  obtain ⟨-, same⟩ := lookup_eq_some_iff.1 found'
  exact congrArg DeclaredKey.qualifier (SymbolKey.declared.inj same)

theorem isDeclared_first_getD_iff : (∃ key, (n.first places name arity).getD (scope.elsewhere t)
    = .declared key) ↔ ∃ place ∈ places, ⟨place, name, arity⟩ ∈ n.declared := by
  cases found : n.first places name arity with
  | none =>
    have absent := first_eq_none_iff.1 found
    simpa [Scope.elsewhere] using absent
  | some key =>
    obtain ⟨place, member, known⟩ := exists_of_first found
    obtain ⟨declared, rfl⟩ := lookup_eq_some_iff.1 known
    simpa using ⟨place, member, declared⟩

/-- When it makes no difference that one choice is tried before another and a third is left out. -/
theorem or_or_getD_eq_iff {α : Type} {a b c : Option α} {other : α}
    (apart : ∀ x, a = some x → b ≠ some x) (named : c ≠ some other) :
    (a.or b).getD other = ((b.or a).or c).getD other ↔
      (a ≠ none → b = none) ∧ (a = none ∧ b = none → c = none) := by
  cases a with
  | none => cases b <;> cases c <;> simp_all [eq_comm]
  | some x => cases b <;> simp_all [eq_comm]

/-- A name is bound to the first declared type in its places, and to a declared one as soon as there
is one. This is the documented order for simple names. For qualified ones it is not when the
qualifier as it stands has the name and so does an inner namespace that it continues, or when only
an imported namespace that it continues has it. -/
theorem bind_lookup_order (n : Names) (scope : Scope) (t : WrittenType)
    (plain : ¬ scope.IsWord t) :
    n.bind scope t = (n.first (scope.places t.qualifier) t.name t.arguments.length).getD
      (scope.elsewhere t) ∧
    ((∃ key, n.bind scope t = .declared key) ↔
      ∃ place ∈ scope.places t.qualifier, ⟨place, t.name, t.arguments.length⟩ ∈ n.declared) ∧
    (n.bind scope t = n.documented scope t ↔ ∀ qualifier, t.qualifier = some qualifier →
      (⟨some qualifier, t.name, t.arguments.length⟩ ∈ n.declared →
        ∀ ns ∈ scope.enclosing,
          ⟨some (ns ++ "." ++ qualifier), t.name, t.arguments.length⟩ ∉ n.declared) ∧
      ((∀ place ∈ scope.places t.qualifier,
          ⟨place, t.name, t.arguments.length⟩ ∉ n.declared) →
        ∀ ns ∈ scope.imports,
          ⟨some (ns ++ "." ++ qualifier), t.name, t.arguments.length⟩ ∉ n.declared)) := by
  refine ⟨bind_eq_first plain, bind_eq_first plain ▸ isDeclared_first_getD_iff, ?_⟩
  rw [bind_eq_first plain, documented]
  obtain ⟨_ | qualifier, name, arguments⟩ := t
  · have same : scope.namespaces.map (continued none) = scope.places none := List.map_id _
    simp [same]
  · -- the two orders differ in where the qualifier stands and in the imports
    let inner := scope.enclosing.map fun ns => continued (some qualifier) (some ns)
    let imported := scope.imports.map fun ns => continued (some qualifier) (some ns)
    have searched : scope.places (some qualifier) = [some qualifier] ++ inner := rfl
    have documented : scope.namespaces.map (continued (some qualifier))
        = (inner ++ [some qualifier]) ++ imported := by
      rw [Scope.namespaces, Scope.namespaceChain_eq]
      simp [inner, imported, continued, Text.qualify, Function.comp_def]
    have apart : ∀ key, n.lookup (some qualifier) name arguments.length = some key →
        n.first inner name arguments.length ≠ some key := by
      intro key found found'
      obtain ⟨place, member, known⟩ := exists_of_first found'
      obtain ⟨ns, -, rfl⟩ := List.mem_map.1 member
      have same : qualifier = ns ++ "." ++ qualifier :=
        Option.some.inj (place_eq_of_lookup found known)
      have longer := congrArg String.length same
      simp only [String.length_append] at longer
      have dot : ".".length = 1 := rfl
      omega
    have named : n.first imported name arguments.length
        ≠ some (scope.elsewhere ⟨some qualifier, name, arguments⟩) := by
      intro found
      obtain ⟨place, -, known⟩ := exists_of_first found
      cases (lookup_eq_some_iff.1 known).2
    dsimp only
    rw [searched, documented, first_append, first_append, first_append, first_singleton,
      or_or_getD_eq_iff apart named, Ne, lookup_eq_none_iff, first_eq_none_iff, first_eq_none_iff]
    simp [inner, imported, continued, Text.qualify]

def twiceDeclared : Names where
  declared := [⟨some "Q", "Base", 0⟩, ⟨some "N.Q", "Base", 0⟩]
  rootQualifier := some "System"
  rootName := "Object"

def insideN : Scope := ⟨some "N", [], [], []⟩

def writtenBase : WrittenType := ⟨some "Q", "Base", []⟩

theorem bind_lookup_order_twice : ¬ insideN.IsWord writtenBase ∧
    twiceDeclared.bind insideN writtenBase = .declared ⟨some "Q", "Base", 0⟩ := by
  have plain : ¬ insideN.IsWord writtenBase := by decide
  exact ⟨plain, (bind_lookup_order twiceDeclared insideN writtenBase plain).1.trans (by decide)⟩

/-- The inner one of two declarations of a qualified name is passed over. -/
theorem bind_inner_passed_over : ¬ ∀ (n : Names) (scope : Scope) (t : WrittenType),
    ¬ scope.IsWord t → n.bind scope t = n.documented scope t := by
  intro claim
  exact absurd (claim twiceDeclared insideN writtenBase (by decide)) (by decide)

end Names

end Binding

end ConventionLint
