import ConventionLint.Proofs.Analysis.Agreement

/-!
# Edits of a type graph

An edit that replaces setters and brings in business rules changes nothing of what markers see of
the types that were there, nor where their base lists lead. What conventions say of them follows:
violations may go where a setter was replaced or a rule was missing, and none come.
-/
namespace ConventionLint

def MemberSymbol.withSetter (setter : Option Setter) (m : MemberSymbol) : MemberSymbol :=
  match m.kind with
  | .property _ => { m with kind := .property setter }
  | .field | .method => m

section

variable (setter : Option Setter) (m : MemberSymbol)

@[simp] theorem MemberSymbol.withSetter_name : (m.withSetter setter).name = m.name := by
  rw [withSetter]
  split <;> rfl

@[simp] theorem MemberSymbol.withSetter_visitKind :
    (m.withSetter setter).visitKind = m.visitKind := by
  rw [withSetter]
  split <;> simp_all [visitKind]

@[simp] theorem MemberSymbol.withSetter_withSetter (other : Option Setter) :
    (m.withSetter other).withSetter setter = m.withSetter setter := by
  cases m with
  | mk name kind accessibility location implicit => cases kind <;> rfl

/-- A property that was given a setter has that one. -/
theorem MemberSymbol.setter_of_withSetter {setter : Option Setter} {m : MemberSymbol}
    {shown : Setter} (kind : (m.withSetter setter).kind = .property (some shown)) :
    setter = some shown := by
  rw [withSetter] at kind
  cases shape : m.kind <;> simp_all

/-- A field has no setter to replace, and nothing else becomes one. -/
theorem MemberSymbol.withSetter_eq_iff {field : MemberSymbol} (kind : field.kind = .field) :
    m.withSetter setter = field ↔ m = field := by
  cases m with
  | mk name other accessibility location implicit =>
    cases other <;> constructor <;> rintro rfl <;> simp_all [withSetter]

end

namespace TypeSymbol

/-- A type apart from the setters of its properties. -/
def withoutSetters (t : TypeSymbol) : TypeSymbol :=
  { t with members := t.members.map (.withSetter none) }

def withSetter (owner : TypeId) (index : Nat) (setter : Option Setter) (t : TypeSymbol) :
    TypeSymbol :=
  if t.id = owner then { t with members := t.members.modify index (.withSetter setter) } else t

variable {owner : TypeId} {index place : Nat} {setter other : Option Setter} {t : TypeSymbol}

@[simp] theorem withSetter_id : (t.withSetter owner index setter).id = t.id := by
  rw [withSetter]
  split <;> rfl

@[simp] theorem withSetter_kind : (t.withSetter owner index setter).kind = t.kind := by
  rw [withSetter]
  split <;> rfl

theorem withSetter_base : (t.withSetter owner index setter).base = t.base := by
  rw [withSetter]
  split <;> rfl

theorem getElem?_withSetter : (t.withSetter owner index setter).members[place]? =
    t.members[place]?.map fun m =>
      if t.id = owner ∧ index = place then m.withSetter setter else m := by
  rw [withSetter]
  by_cases owned : t.id = owner
  · simp [owned, List.getElem?_modify]
  · simp [owned]

/-- What does not tell setters apart does not tell members apart whose setters are replaced. -/
theorem map_withSetter {α : Type} {view : MemberSymbol → α}
    (blind : ∀ m : MemberSymbol, view (m.withSetter setter) = view m) :
    (t.withSetter owner index setter).members.map view = t.members.map view := by
  apply List.ext_getElem?
  intro place
  simp only [List.getElem?_map, getElem?_withSetter, Option.map_map]
  congr 1
  funext m
  simp only [Function.comp_apply]
  split
  · exact blind m
  · rfl

theorem withoutSetters_withSetter :
    (t.withSetter owner index setter).withoutSetters = t.withoutSetters := by
  have stripped : (t.withSetter owner index setter).members.map (MemberSymbol.withSetter none)
      = t.members.map (MemberSymbol.withSetter none) := map_withSetter fun m => by simp
  rw [withoutSetters, stripped, withSetter]
  split <;> rfl

@[simp] theorem withSetter_withSetter :
    (t.withSetter owner index other).withSetter owner index setter
      = t.withSetter owner index setter := by
  by_cases owned : t.id = owner
  · have last : MemberSymbol.withSetter setter ∘ MemberSymbol.withSetter other =
        MemberSymbol.withSetter setter := by
      funext m
      simp
    simp [withSetter, owned, List.modify_modify_eq, last]
  · simp [withSetter, owned]

end TypeSymbol

namespace Resolver

variable {r r' : Resolver} {s : SymbolRef} {f : Finding} {t a b : TypeSymbol}

theorem directBase_of_mem (present : t ∈ r.compilation.types) :
    r.directBase t.id = t.base.bind r.follow := by
  rw [directBase, baseOf, Compilation.get?_iff_mem.2 present, Option.bind_some]

theorem firstArgument_of_mem (present : t ∈ r.compilation.types) :
    r.firstArgument t.id = t.base.bind fun base => base.arguments.head?.bind r.follow := by
  rw [firstArgument, baseOf, Compilation.get?_iff_mem.2 present, Option.bind_some]

/-- An edit that changes setters at most, by `g`, and brings in types that are business rules if
they are anything and have no members. -/
structure Carries (r r' : Resolver) (g : TypeSymbol → TypeSymbol) (added : List TypeSymbol) :
    Prop where
  markers : r.markers = r'.markers
  types : r'.compilation.types = r.compilation.types.map g ++ added
  kept (t : TypeSymbol) : (g t).withoutSetters = t.withoutSetters
  base : ∀ t ∈ r.compilation.types, r'.directBase t.id = (r.directBase t.id).map g
  argument : ∀ t ∈ r.compilation.types, r'.firstArgument t.id = (r.firstArgument t.id).map g
  idle : ∀ t ∈ added, ∀ kind direct, r'.NearestMarker t.id kind direct → kind = .businessRule
  memberless : ∀ t ∈ added, t.members = []

namespace Carries

variable {g : TypeSymbol → TypeSymbol} {added : List TypeSymbol} (h : r.Carries r' g added)
include h

theorem id_eq (t : TypeSymbol) : (g t).id = t.id :=
  (congrArg TypeSymbol.id (h.kept t) :)

theorem name_eq (t : TypeSymbol) : (g t).name = t.name :=
  (congrArg TypeSymbol.name (h.kept t) :)

theorem kind_eq (t : TypeSymbol) : (g t).kind = t.kind :=
  (congrArg TypeSymbol.kind (h.kept t) :)

theorem qualifier_eq (t : TypeSymbol) : (g t).qualifier = t.qualifier :=
  (congrArg TypeSymbol.qualifier (h.kept t) :)

theorem location_eq (t : TypeSymbol) : (g t).location = t.location :=
  (congrArg TypeSymbol.location (h.kept t) :)

theorem kindOf_eq (markers : MarkerSet) (t : TypeSymbol) :
    markers.kindOf (g t) = markers.kindOf t :=
  (congrArg markers.kindOf (h.kept t) :)

theorem sameCommand_iff (a b : TypeSymbol) :
    Compilation.SameCommand (g a) (g b) ↔ Compilation.SameCommand a b := by
  have outer : Compilation.sameExternal (g a) (g b) = Compilation.sameExternal a b :=
    (congrArg₂ Compilation.sameExternal (h.kept a) (h.kept b) :)
  rw [Compilation.SameCommand, Compilation.SameCommand, h.id_eq, h.id_eq, outer]

/-- Replaced setters do not keep members from being told apart by their names. -/
theorem names_eq (t : TypeSymbol) : (g t).members.map (·.name) = t.members.map (·.name) := by
  have names (t : TypeSymbol) :
      t.withoutSetters.members.map (·.name) = t.members.map (·.name) := by
    simp [TypeSymbol.withoutSetters, Function.comp_def]
  rw [← names, h.kept, names]

theorem getElem?_field {field : MemberSymbol} (kind : field.kind = .field) (index : Nat) :
    (g t).members[index]? = some field ↔ t.members[index]? = some field := by
  have stripped (t : TypeSymbol) : t.withoutSetters.members[index]? = some field ↔
      t.members[index]? = some field := by
    simp [TypeSymbol.withoutSetters, MemberSymbol.withSetter_eq_iff none _ kind]
  rw [← stripped, h.kept, stripped]

theorem declaredTypes_eq : r'.compilation.declaredTypes
    = r.compilation.declaredTypes.map g ++ added.filter (·.kind.isDeclared) := by
  have kinds : (fun t : TypeSymbol => t.kind.isDeclared) ∘ g = fun t => t.kind.isDeclared := by
    funext t
    simp [h.kind_eq]
  rw [Compilation.declaredTypes, Compilation.declaredTypes, h.types, List.filter_append,
    List.filter_map, kinds]

/-- A declared type is one of those before or was added. -/
theorem exists_declared_iff {P : TypeSymbol → Prop} : (∃ t ∈ r'.compilation.declaredTypes, P t) ↔
    (∃ t ∈ r.compilation.declaredTypes, P (g t)) ∨
      ∃ t ∈ added, t.kind.isDeclared = true ∧ P t := by
  simp only [h.declaredTypes_eq, List.mem_append, List.mem_map, List.mem_filter, or_and_right,
    exists_or, exists_exists_and_eq_and, and_assoc]

theorem linked : r.Linked r' fun a b => a ∈ r.compilation.types ∧ g a = b where
  markers := h.markers
  name := by
    rintro a _ ⟨-, rfl⟩
    exact (h.name_eq a).symm
  kindOf := by
    rintro a _ ⟨-, rfl⟩
    exact (h.kindOf_eq _ a).symm
  apart := by
    rintro a _ b _ ⟨-, rfl⟩ ⟨-, rfl⟩ same
    rwa [h.id_eq, h.id_eq] at same
  base := by
    rintro a _ x ⟨present, rfl⟩ link
    rw [h.id_eq, h.base a present, link]
    exact ⟨g x, rfl, Compilation.get?_iff_mem.1 (get?_of_directBase link), rfl⟩

theorem linked_back : r'.Linked r fun b a => a ∈ r.compilation.types ∧ g a = b where
  markers := h.markers.symm
  name := by
    rintro _ a ⟨-, rfl⟩
    exact h.name_eq a
  kindOf := by
    rintro _ a ⟨-, rfl⟩
    exact h.kindOf_eq _ a
  apart := by
    rintro _ a _ b ⟨-, rfl⟩ ⟨-, rfl⟩ same
    rwa [h.id_eq, h.id_eq]
  base := by
    rintro _ a y ⟨present, rfl⟩ link
    rw [h.id_eq, h.base a present, Option.map_eq_some_iff] at link
    obtain ⟨x, link, rfl⟩ := link
    exact ⟨x, link, Compilation.get?_iff_mem.1 (get?_of_directBase link), rfl⟩

theorem nearestMarker_iff (present : t ∈ r.compilation.types) {kind : MarkerKind} {direct : Bool} :
    r'.NearestMarker t.id kind direct ↔ r.NearestMarker t.id kind direct := by
  constructor
  · intro nearest
    rw [← h.id_eq] at nearest
    exact h.linked_back.nearestMarker ⟨present, rfl⟩ nearest
  · intro nearest
    rw [← h.id_eq]
    exact h.linked.nearestMarker ⟨present, rfl⟩ nearest

theorem mem_declaredTypes (declared : t ∈ r.compilation.declaredTypes) :
    g t ∈ r'.compilation.declaredTypes := by
  rw [h.declaredTypes_eq]
  exact List.mem_append_left _ (List.mem_map_of_mem declared)

/-- A use case that was there handles what it did. -/
theorem handles_iff (declared : t ∈ r.compilation.declaredTypes) :
    r'.Handles (g t) b ↔ ∃ x, r.Handles t x ∧ g x = b := by
  have present := (Compilation.mem_declaredTypes.1 declared).1
  simp only [Handles, declared, h.mem_declaredTypes declared, true_and, h.id_eq,
    h.nearestMarker_iff present, h.argument t present, Option.map_eq_some_iff]
  constructor
  · rintro ⟨nearest, ⟨x, argument, rfl⟩, concrete⟩
    exact ⟨x, ⟨nearest, argument, h.kind_eq x ▸ concrete⟩, rfl⟩
  · rintro ⟨x, ⟨nearest, argument, concrete⟩, rfl⟩
    exact ⟨nearest, ⟨x, argument, rfl⟩, (h.kind_eq x).symm ▸ concrete⟩

theorem not_handles (new : t ∈ added) : ¬ r'.Handles t b := by
  intro handles
  cases h.idle t new _ _ handles.2.1

/-- A business rule that was there targets what it did. -/
theorem targets_iff (declared : t ∈ r.compilation.declaredTypes) :
    r'.Targets (g t) b ↔ ∃ x, r.Targets t x ∧ g x = b := by
  have present := (Compilation.mem_declaredTypes.1 declared).1
  simp only [Targets, declared, h.mem_declaredTypes declared, true_and, h.id_eq,
    h.nearestMarker_iff present, h.argument t present, Option.map_eq_some_iff]
  constructor
  · rintro ⟨nearest, x, argument, rfl⟩
    exact ⟨x, ⟨nearest, argument⟩, rfl⟩
  · rintro ⟨x, ⟨nearest, argument⟩, rfl⟩
    exact ⟨nearest, x, argument, rfl⟩

theorem isMessage_iff (declared : t ∈ r.compilation.declaredTypes) :
    r'.IsMessage (g t) ↔ r.IsMessage t := by
  have present := (Compilation.mem_declaredTypes.1 declared).1
  have handled : (∃ useCase, r'.Handles useCase (g t)) ↔ ∃ useCase, r.Handles useCase t := by
    constructor
    · rintro ⟨u', handles⟩
      obtain ⟨u, declared, handles⟩ | ⟨u, new, -, handles⟩ :=
        (h.exists_declared_iff (P := (r'.Handles · (g t)))).1 ⟨u', handles.1, handles⟩
      · obtain ⟨x, before, same⟩ := (h.handles_iff declared).1 handles
        have ids : x.id = t.id := by rw [← h.id_eq, same, h.id_eq]
        have known := mem_types_of_firstArgument before.2.2.1
        exact ⟨u, Compilation.eq_of_id_eq known present ids ▸ before⟩
      · exact absurd handles (h.not_handles new)
    · rintro ⟨u, handles⟩
      exact ⟨g u, (h.handles_iff handles.1).2 ⟨t, handles, rfl⟩⟩
  rw [IsMessage, IsMessage, handled]
  simp only [h.id_eq, h.nearestMarker_iff present]

/-- What is broken by types and fields stays broken, and nothing else is. -/
theorem violates_iff {k : Convention} (types : k ≠ .missingBusinessRule)
    (setters : k ≠ .mutableProperty) : r'.Violates s f k ↔ r.Violates s f k := by
  have old {t : TypeSymbol} (declared : t ∈ r.compilation.declaredTypes) :=
    (Compilation.mem_declaredTypes.1 declared).1
  -- an added type has no part in these: it bears no marker that they ask for and has no members
  cases k with
  | commandNaming =>
    rw [Violates, h.exists_declared_iff, or_iff_left]
    · refine exists_congr fun t => and_congr_right fun declared => ?_
      rw [h.id_eq, h.nearestMarker_iff (old declared), h.name_eq, h.location_eq]
    · rintro ⟨t, new, -, -, nearest, -⟩
      cases h.idle t new _ _ nearest
  | eventNaming =>
    rw [Violates, h.exists_declared_iff, or_iff_left]
    · refine exists_congr fun t => and_congr_right fun declared => ?_
      simp only [h.nearestMarker_iff (old declared), h.id_eq, h.name_eq, h.location_eq]
    · rintro ⟨t, new, -, -, ⟨direct, nearest⟩, -⟩
      cases h.idle t new _ _ nearest
  | mutableProperty => exact absurd rfl setters
  | messageField =>
    rw [Violates, h.exists_declared_iff, or_iff_left]
    · refine exists_congr fun t => and_congr_right fun declared => ?_
      simp only [h.nearestMarker_iff (old declared), h.id_eq, h.name_eq]
      refine exists_congr fun index => exists_congr fun field => ?_
      by_cases kind : field.kind = .field
      · rw [h.getElem?_field kind]
      · simp [kind]
    · rintro ⟨t, new, -, index, field, found, -⟩
      simp [h.memberless t new] at found
  | missingBusinessRule => exact absurd rfl types
  | missingImplementation =>
    rw [Violates, h.exists_declared_iff, or_iff_left]
    · refine exists_congr fun t => and_congr_right fun declared => ?_
      have handled : (∃ command, r'.Handles (g t) command) ↔ ∃ command, r.Handles t command := by
        simp [h.handles_iff declared]
      have named (t : TypeSymbol) : (∀ m ∈ t.members, m.name ≠ "Execute" ∧ m.name ≠ "ExecuteAsync")
          ↔ ∀ name ∈ t.members.map (·.name), name ≠ "Execute" ∧ name ≠ "ExecuteAsync" := by
        simp
      rw [handled, named, h.names_eq, ← named, h.id_eq, h.name_eq, h.location_eq]
    · rintro ⟨t, new, -, -, ⟨command, handles⟩, -⟩
      exact h.not_handles new handles

/-- A command has no rule if it had none and is not given one. -/
theorem uncovered_iff (command : TypeSymbol) :
    (∀ rule target, r'.Targets rule target → ¬ Compilation.SameCommand target (g command)) ↔
      (∀ rule target, r.Targets rule target → ¬ Compilation.SameCommand target command) ∧
      ∀ rule ∈ added, ∀ target, r'.Targets rule target →
        ¬ Compilation.SameCommand target (g command) := by
  constructor
  · intro bare
    refine ⟨fun rule target targets same => ?_, fun rule _ => bare rule⟩
    have targets' := (h.targets_iff targets.1).2 ⟨target, targets, rfl⟩
    exact bare _ _ targets' ((h.sameCommand_iff target command).2 same)
  · rintro ⟨bare, spared⟩ rule target targets same
    obtain ⟨t, declared, targets⟩ | ⟨t, new, -, targets⟩ :=
      (h.exists_declared_iff (P := (r'.Targets · target))).1 ⟨rule, targets.1, targets⟩
    · obtain ⟨x, before, rfl⟩ := (h.targets_iff declared).1 targets
      exact bare t x before ((h.sameCommand_iff x command).1 same)
    · exact spared t new target targets same

/-- A use case lacks a rule if it lacked one and no added type is one for its command. -/
theorem missingBusinessRule_iff : r'.Violates s f .missingBusinessRule ↔
    r.Violates s f .missingBusinessRule ∧
      ∀ useCase command, s = .type useCase.id → r.Handles useCase command →
        ∀ rule ∈ added, ∀ target, r'.Targets rule target →
          ¬ Compilation.SameCommand target (g command) := by
  rw [Violates, h.exists_declared_iff, or_iff_left]
  · constructor
    · rintro ⟨t, declared, rfl, command', handles', bare, rfl⟩
      obtain ⟨command, handles, rfl⟩ := (h.handles_iff declared).1 handles'
      rw [h.uncovered_iff] at bare
      rw [h.id_eq, h.name_eq, h.name_eq, h.qualifier_eq, h.location_eq]
      refine ⟨⟨t, declared, rfl, command, handles, bare.1, rfl⟩, ?_⟩
      intro useCase other same handled
      obtain rfl := Compilation.eq_of_id_eq (Compilation.mem_declaredTypes.1 declared).1
        (Compilation.mem_declaredTypes.1 handled.1).1 (SymbolRef.type.inj same)
      exact handles.unique handled ▸ bare.2
    · rintro ⟨⟨t, declared, rfl, command, handles, bare, rfl⟩, spared⟩
      refine ⟨t, declared, by rw [h.id_eq], g command, ?_, ?_, ?_⟩
      · exact (h.handles_iff declared).2 ⟨command, handles, rfl⟩
      · exact (h.uncovered_iff command).2 ⟨bare, spared t command rfl handles⟩
      · rw [h.name_eq, h.name_eq, h.qualifier_eq, h.location_eq]
  · rintro ⟨t, new, -, -, command, handles, -⟩
    exact h.not_handles new handles

/-- A property that can be changed could be changed before, and its type was the message it is. -/
theorem mutableProperty_iff : r'.Violates s f .mutableProperty ↔
    ∃ owner ∈ r.compilation.declaredTypes, ∃ index property,
      (g owner).members[index]? = some property ∧ s = .member owner.id index ∧
      r.IsMessage owner ∧ (∃ setter, property.kind = .property (some setter) ∧
        setter.accessibility = .publicAccess ∧ setter.initOnly = false) ∧
      f = .named property.name property.location [.removeSetter, .demoteSetter] := by
  rw [Violates, h.exists_declared_iff, or_iff_left]
  · refine exists_congr fun t => and_congr_right fun declared => ?_
    simp only [h.id_eq, h.isMessage_iff declared]
  · rintro ⟨t, new, -, index, property, found, -⟩
    simp [h.memberless t new] at found

end Carries

end Resolver

end ConventionLint
