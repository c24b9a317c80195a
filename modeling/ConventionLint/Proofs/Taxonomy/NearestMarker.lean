import ConventionLint.Proofs.Taxonomy.BaseChain
import ConventionLint.Taxonomy.Classification

/-!
# Classification by the nearest marker

What a declared type is follows from the first marker on its chain of base types. A type that
matches the root's identity under another simple name stands on the chain like any other base.
-/
namespace ConventionLint.Resolver

variable {r : Resolver} {id : TypeId}

/-- The first base type that is a marker, the root apart, is one of the given kind. It is `direct`
when no base type stands before it. -/
def NearestMarker (r : Resolver) (id : TypeId) (kind : MarkerKind) (direct : Bool) : Prop :=
  ∃ before marker, r.IsChain id (before ++ [marker]) ∧
    r.markers.kindOf marker = some kind ∧ kind ≠ .root ∧
    (∀ base ∈ before, ∀ other, r.markers.kindOf base = some other → other = .root) ∧
    direct = before.isEmpty

def IsDeclared (r : Resolver) (id : TypeId) : Prop :=
  ∃ t, r.compilation.get? id = some t ∧ t.kind.isDeclared

theorem classifyFrom_skip {base : TypeSymbol} {bases : List TypeSymbol} {direct : Bool}
    (unmarked : ∀ kind, r.markers.kindOf base = some kind → kind = .root) :
    r.classifyFrom id direct (base :: bases) = r.classifyFrom id false bases := by
  rw [classifyFrom]
  cases marked : r.markers.kindOf base with
  | none => rfl
  | some kind =>
    rw [unmarked kind marked]
    rfl

theorem classifyFrom_marker {base : TypeSymbol} {bases : List TypeSymbol} {direct : Bool}
    {kind : MarkerKind} (marked : r.markers.kindOf base = some kind) (deciding : kind ≠ .root) :
    r.classifyFrom id direct (base :: bases) = r.classifyBy id direct kind := by
  rw [classifyFrom, marked]
  cases kind with
  | root => exact absurd rfl deciding
  | command => rfl
  | event => rfl
  | useCase => rfl
  | businessRule => rfl

theorem classifyFrom_eq_some_iff {bases : List TypeSymbol} {direct : Bool} {taxonomy : Taxonomy} :
    r.classifyFrom id direct bases = some taxonomy ↔
      ∃ before marker kind, before ++ [marker] <+: bases ∧
        r.markers.kindOf marker = some kind ∧ kind ≠ .root ∧
        (∀ base ∈ before, ∀ other, r.markers.kindOf base = some other → other = .root) ∧
        r.classifyBy id (direct && before.isEmpty) kind = some taxonomy := by
  induction bases generalizing direct with
  | nil => simp [classifyFrom]
  | cons base bases ih =>
    by_cases unmarked : ∀ kind, r.markers.kindOf base = some kind → kind = .root
    · rw [classifyFrom_skip unmarked, ih]
      constructor
      · rintro ⟨before, marker, kind, beginning, marked, deciding, others, made⟩
        exact ⟨base :: before, marker, kind, by simpa using beginning, marked, deciding,
          by simpa using ⟨unmarked, others⟩, by simpa using made⟩
      · rintro ⟨before, marker, kind, beginning, marked, deciding, others, made⟩
        cases before with
        | nil =>
          obtain ⟨rfl, -⟩ := List.cons_prefix_cons.1 beginning
          exact absurd (unmarked kind marked) deciding
        | cons first before =>
          exact ⟨before, marker, kind, (List.cons_prefix_cons.1 beginning).2, marked, deciding,
            fun b member => others b (List.mem_cons_of_mem _ member), by simpa using made⟩
    · push Not at unmarked
      obtain ⟨kind, marked, deciding⟩ := unmarked
      rw [classifyFrom_marker marked deciding]
      constructor
      · intro made
        exact ⟨[], base, kind, by simp, marked, deciding, by simp, by simpa using made⟩
      · rintro ⟨before, marker, other, beginning, marked', -, others, made⟩
        cases before with
        | nil =>
          obtain ⟨rfl, -⟩ := List.cons_prefix_cons.1 beginning
          obtain rfl := Option.some.inj (marked.symm.trans marked')
          simpa using made
        | cons first before =>
          obtain ⟨rfl, -⟩ := List.cons_prefix_cons.1 beginning
          exact absurd (others first (by simp) kind marked) deciding

theorem classifyFrom_ancestry_iff {taxonomy : Taxonomy} :
    r.classifyFrom id true (r.ancestry id) = some taxonomy ↔
      ∃ kind direct, r.NearestMarker id kind direct ∧
        r.classifyBy id direct kind = some taxonomy := by
  rw [classifyFrom_eq_some_iff]
  simp only [← isChain_iff_prefix_ancestry, Bool.true_and]
  constructor
  · rintro ⟨before, marker, kind, chain, marked, deciding, others, made⟩
    exact ⟨kind, _, ⟨before, marker, chain, marked, deciding, others, rfl⟩, made⟩
  · rintro ⟨kind, _, ⟨before, marker, chain, marked, deciding, others, rfl⟩, made⟩
    exact ⟨before, marker, kind, chain, marked, deciding, others, made⟩

/-- A type has one nearest marker. -/
theorem NearestMarker.kind_unique {kind kind' : MarkerKind} {direct direct' : Bool}
    (h : r.NearestMarker id kind direct) (h' : r.NearestMarker id kind' direct') :
    kind = kind' := by
  have decides {kind : MarkerKind} {direct : Bool} (h : r.NearestMarker id kind direct) :
      r.classifyFrom id true (r.ancestry id) = r.classifyBy id direct kind := by
    obtain ⟨taxonomy, made⟩ : ∃ taxonomy, r.classifyBy id direct kind = some taxonomy := by
      obtain ⟨-, -, -, -, deciding, -⟩ := h
      cases kind <;> simp_all [classifyBy]
    rw [made, classifyFrom_ancestry_iff]
    exact ⟨kind, direct, h, made⟩
  have same := (decides h).symm.trans (decides h')
  obtain ⟨-, -, -, -, deciding, -⟩ := h
  cases kind <;> cases kind' <;> simp_all [classifyBy]

/-- Apart from what no marker decides, a classification is what the nearest marker makes of a
declared type. -/
theorem classify_eq_iff {taxonomy : Taxonomy} (rooted : taxonomy ≠ .rootDerived)
    (classified : taxonomy ≠ .unclassified) :
    r.classify id = taxonomy ↔ r.IsDeclared id ∧
      ∃ kind direct, r.NearestMarker id kind direct ∧
        r.classifyBy id direct kind = some taxonomy := by
  have declared : (r.compilation.get? id).any (·.kind.isDeclared) = true ↔ r.IsDeclared id := by
    cases found : r.compilation.get? id <;> simp [IsDeclared, found]
  rw [classify, ← classifyFrom_ancestry_iff, ← declared]
  split
  · next present =>
    cases r.classifyFrom id true (r.ancestry id) with
    | none =>
      simp only [present, true_and, reduceCtorEq, iff_false]
      split
      · exact Ne.symm rooted
      · exact Ne.symm classified
    | some found => simp [present]
  · next absent => simp [absent, Ne.symm classified]

theorem classifyBy_eq_command_iff {kind : MarkerKind} {direct shown : Bool} :
    r.classifyBy id direct kind = some (.command shown) ↔ kind = .command ∧ direct = shown := by
  cases kind <;> simp [classifyBy]

theorem classifyBy_eq_event_iff {kind : MarkerKind} {direct : Bool} :
    r.classifyBy id direct kind = some .event ↔ kind = .event := by
  cases kind <;> simp [classifyBy]

theorem classifyBy_eq_useCase_iff {kind : MarkerKind} {direct : Bool} {command : Option TypeId} :
    r.classifyBy id direct kind = some (.useCase command true) ↔
      kind = .useCase ∧ direct = true ∧ r.commandArgument id = command := by
  cases kind <;> cases direct <;> simp [classifyBy]

theorem classifyBy_eq_businessRule_iff {kind : MarkerKind} {direct : Bool}
    {target : Option TypeId} :
    r.classifyBy id direct kind = some (.businessRule target) ↔
      kind = .businessRule ∧ (r.firstArgument id).map (·.id) = target := by
  cases kind <;> simp [classifyBy]

theorem classify_eq_command_iff {direct : Bool} :
    r.classify id = .command direct ↔ r.IsDeclared id ∧ r.NearestMarker id .command direct := by
  rw [classify_eq_iff (by simp) (by simp)]
  simp [classifyBy_eq_command_iff]

theorem classify_eq_event_iff :
    r.classify id = .event ↔ r.IsDeclared id ∧ ∃ direct, r.NearestMarker id .event direct := by
  rw [classify_eq_iff (by simp) (by simp)]
  simp [classifyBy_eq_event_iff]

theorem classify_eq_useCase_iff {command : Option TypeId} :
    r.classify id = .useCase command true ↔
      r.IsDeclared id ∧ r.NearestMarker id .useCase true ∧ r.commandArgument id = command := by
  rw [classify_eq_iff (by simp) (by simp)]
  simp [classifyBy_eq_useCase_iff]

theorem classify_eq_businessRule_iff {target : Option TypeId} :
    r.classify id = .businessRule target ↔ r.IsDeclared id ∧
      (∃ direct, r.NearestMarker id .businessRule direct) ∧
        (r.firstArgument id).map (·.id) = target := by
  rw [classify_eq_iff (by simp) (by simp)]
  simp [classifyBy_eq_businessRule_iff]

end ConventionLint.Resolver
