import ConventionLint.Proofs.Taxonomy.MarkerBases

/-!
# Identity taken less strictly

With lenient identity an external type that is written without a qualifier is a marker by its simple
name alone. Such a guess counts as much as a marker that is known. It decides over the markers
behind it on the chain of base types, and where markers share a simple name, over those that are
tried later. Unless a guess comes first, what strict identity finds stays as it is.
-/
namespace ConventionLint

/-- The first of some elements is the first of those with a further property, unless it lacks it. -/
theorem find?_eq_filter_or {α : Type} (p q : α → Bool) (l : List α) :
    l.find? p = ((l.find? p).filter fun a => !q a).or (l.find? fun a => p a && q a) := by
  induction l with
  | nil => rfl
  | cons a l ih =>
    rw [List.find?_cons, List.find?_cons]
    cases p a with
    | false => simpa using ih
    | true => cases further : q a <;> simp [Option.filter, further]

namespace MarkerSet

variable {ms : MarkerSet} {t : TypeSymbol} {kind : MarkerKind} {strict : Bool}

def withStrict (ms : MarkerSet) (strict : Bool) : MarkerSet :=
  { ms with strict }

/-- What an external type without a qualifier is taken for by its simple name alone: the first
marker of this name, unless its namespace is imported. -/
def guess (ms : MarkerSet) (t : TypeSymbol) : Option MarkerKind :=
  if t.kind = .external ∧ t.qualifier = none then
    (MarkerKind.all.find? fun kind => t.name = (ms.marker kind).name).filter fun kind =>
      !t.imports.any (some · = (ms.marker kind).qualifier)
  else none

theorem isMarker_of_unqualified (bare : t.kind = .external ∧ t.qualifier = none) :
    (ms.withStrict strict).isMarker t kind = (decide (t.name = (ms.marker kind).name) &&
      (t.imports.any (some · = (ms.marker kind).qualifier) || !strict)) := by
  have unknown : t.qualifiedName = none := by
    rw [TypeSymbol.qualifiedName, bare.1, bare.2]
  by_cases named : t.name = (ms.marker kind).name
  · rw [isMarker, if_neg (by simp [withStrict, bare.1, named]), unknown, decide_eq_true named,
      Bool.true_and]
    rfl
  · simp [isMarker, withStrict, named]

theorem isMarker_of_qualified (known : ¬ (t.kind = .external ∧ t.qualifier = none)) :
    (ms.withStrict strict).isMarker t kind = ms.isMarker t kind := by
  cases shown : t.qualifiedName with
  | some qualified =>
    rw [isMarker, isMarker, shown]
    rfl
  | none =>
    have parameter : t.kind = .typeParameter := by
      rw [TypeSymbol.qualifiedName] at shown
      split at shown <;> simp_all
    simp [isMarker, withStrict, parameter]

theorem isMarker_relaxed (marked : (ms.withStrict true).isMarker t kind = true) :
    (ms.withStrict false).isMarker t kind = true := by
  by_cases bare : t.kind = .external ∧ t.qualifier = none
  · rw [isMarker_of_unqualified bare, Bool.and_eq_true] at marked ⊢
    exact ⟨marked.1, by simp⟩
  · rwa [isMarker_of_qualified bare] at marked ⊢

/-- With lenient identity a guess is made first. -/
theorem kindOf_relaxed (ms : MarkerSet) (t : TypeSymbol) :
    (ms.withStrict false).kindOf t = (ms.guess t).or ((ms.withStrict true).kindOf t) := by
  rw [kindOf, kindOf, guess]
  by_cases bare : t.kind = .external ∧ t.qualifier = none
  · have relaxed : (ms.withStrict false).isMarker t
        = fun kind => decide (t.name = (ms.marker kind).name) := by
      funext kind
      rw [isMarker_of_unqualified bare, Bool.not_false, Bool.or_true, Bool.and_true]
    have strict : (ms.withStrict true).isMarker t
        = fun kind => decide (t.name = (ms.marker kind).name) &&
            t.imports.any (some · = (ms.marker kind).qualifier) := by
      funext kind
      rw [isMarker_of_unqualified bare, Bool.not_true, Bool.or_false]
    rw [if_pos bare, relaxed, strict]
    exact find?_eq_filter_or _ _ _
  · have same : (ms.withStrict false).isMarker t = (ms.withStrict true).isMarker t := by
      funext kind
      rw [isMarker_of_qualified bare, isMarker_of_qualified bare]
    rw [if_neg bare, same, Option.none_or]

theorem external_of_guess (guessed : ms.guess t = some kind) : t.kind = .external := by
  rw [guess] at guessed
  split at guessed
  · next bare => exact bare.1
  · cases guessed

theorem name_of_guess (guessed : ms.guess t = some kind) : t.name = (ms.marker kind).name := by
  rw [guess] at guessed
  split at guessed
  · obtain ⟨first, -⟩ := Option.filter_eq_some_iff.1 guessed
    simpa using List.find?_some first
  · cases guessed

/-- Where no two markers share a simple name, a marker that is known leaves nothing to guess. -/
theorem guess_eq_none_of_kindOf (apart : ms.NamesApart)
    (marked : (ms.withStrict true).kindOf t = some kind) : ms.guess t = none := by
  cases guessed : ms.guess t with
  | none => rfl
  | some other =>
    have known := List.find?_some marked
    have named : t.name = ((ms.withStrict true).marker kind).name := name_of_isMarker known
    obtain rfl : other = kind := apart other kind ((name_of_guess guessed).symm.trans named)
    rw [guess] at guessed
    split at guessed
    · next bare =>
      rw [isMarker_of_unqualified bare, Bool.not_true, Bool.or_false, Bool.and_eq_true] at known
      obtain ⟨-, foreign⟩ := Option.filter_eq_some_iff.1 guessed
      rw [known.2] at foreign
      cases foreign
    · cases guessed

end MarkerSet

def Taxonomy.isMarked : Taxonomy → Bool
  | .rootDerived | .unclassified => false
  | .command _ | .event | .useCase _ _ | .businessRule _ => true

/-- Only what is declared is built with a base. -/
theorem Binding.base_of_external_build {root : String} {files : List SourceFile} {t : TypeSymbol}
    (member : t ∈ (Compilation.build root files).types) (external : t.kind = .external) :
    t.base = none := by
  have based := isSome_base_iff member
  rw [external] at based
  simpa using based

namespace Resolver

variable {r : Resolver} {id : TypeId} {kind : MarkerKind} {direct strict : Bool}
  {path before : List TypeSymbol} {base : TypeSymbol}

/-- The root, though it is tried first, is on no chain. -/
theorem kindOf_ne_root (chain : r.IsChain id path) (member : base ∈ path) :
    r.markers.kindOf base ≠ some .root := fun rooted =>
  chain.belowRoot base member (MarkerSet.name_of_isMarker (List.find?_some rooted))

theorem nearestMarker_iff : r.NearestMarker id kind direct ↔
    ∃ before marker, r.IsChain id (before ++ [marker]) ∧ r.markers.kindOf marker = some kind ∧
      (∀ b ∈ before, r.markers.kindOf b = none) ∧ direct = before.isEmpty := by
  constructor
  · rintro ⟨before, marker, chain, marked, -, others, first⟩
    refine ⟨before, marker, chain, marked, fun b member => ?_, first⟩
    cases found : r.markers.kindOf b with
    | none => rfl
    | some other =>
      obtain rfl := others b member other found
      exact absurd found (kindOf_ne_root chain (by simp [member]))
  · rintro ⟨before, marker, chain, marked, others, first⟩
    refine ⟨before, marker, chain, marked, ?_, fun b member other found => ?_, first⟩
    · rintro rfl
      exact kindOf_ne_root chain (by simp) marked
    · rw [others b member] at found
      cases found

theorem NearestMarker.ne_root (nearest : r.NearestMarker id kind direct) : kind ≠ .root := by
  obtain ⟨-, -, -, -, deciding, -⟩ := nearest
  exact deciding

/-- The nearest marker decides what a declared type is. -/
theorem NearestMarker.classifyBy_eq (declared : r.IsDeclared id)
    (nearest : r.NearestMarker id kind direct) :
    r.classifyBy id direct kind = some (r.classify id) := by
  have made (taxonomy : Taxonomy) (rooted : taxonomy ≠ .rootDerived)
      (classified : taxonomy ≠ .unclassified)
      (by_kind : r.classifyBy id direct kind = some taxonomy) :
      r.classifyBy id direct kind = some (r.classify id) := by
    rw [(classify_eq_iff rooted classified).2 ⟨declared, kind, direct, nearest, by_kind⟩, by_kind]
  cases kind with
  | root => exact absurd rfl nearest.ne_root
  | command | event | useCase | businessRule => exact made _ (by simp) (by simp) rfl

theorem isMarked_classify_iff : (r.classify id).isMarked = true ↔
    r.IsDeclared id ∧ ∃ kind direct, r.NearestMarker id kind direct := by
  constructor
  · intro marked
    obtain ⟨declared, kind, direct, nearest, -⟩ := (classify_eq_iff
      (fun rooted => by rw [rooted] at marked; cases marked)
      (fun classified => by rw [classified] at marked; cases marked)).1 (Eq.refl (r.classify id))
    exact ⟨declared, kind, direct, nearest⟩
  · rintro ⟨declared, kind, direct, nearest⟩
    have made := nearest.classifyBy_eq declared
    cases kind with
    | root => exact absurd rfl nearest.ne_root
    | command | event | useCase | businessRule => exact Option.some.inj made ▸ rfl

def withStrict (r : Resolver) (strict : Bool) : Resolver :=
  ⟨r.compilation, r.markers.withStrict strict⟩

theorem ancestryFrom_withStrict (limit : Nat) (seen : List TypeId) (reference : Option TypeRef) :
    (r.withStrict strict).ancestryFrom limit seen reference
      = r.ancestryFrom limit seen reference := by
  induction limit generalizing seen reference with
  | zero => rfl
  | succ limit ih =>
    cases reference with
    | none => rfl
    | some reference =>
      rw [ancestryFrom, ancestryFrom]
      simp only [ih]
      rfl

theorem isChain_withStrict : (r.withStrict strict).IsChain id path ↔ r.IsChain id path := by
  rw [isChain_iff_prefix_ancestry, isChain_iff_prefix_ancestry, ancestry, ancestryFrom_withStrict]
  rfl

theorem kindOf_withStrict_false (r : Resolver) (t : TypeSymbol) :
    (r.withStrict false).markers.kindOf t
      = (r.markers.guess t).or ((r.withStrict true).markers.kindOf t) :=
  r.markers.kindOf_relaxed t

/-- The first base type that is a marker or taken for one is taken for one of the given kind by its
simple name alone. It is `direct` when no base type stands before it. -/
def NearestGuess (r : Resolver) (id : TypeId) (kind : MarkerKind) (direct : Bool) : Prop :=
  ∃ before base, r.IsChain id (before ++ [base]) ∧ r.markers.guess base = some kind ∧
    (∀ b ∈ before, (r.withStrict false).markers.kindOf b = none) ∧ direct = before.isEmpty

/-- A guess that comes first decides like a marker. -/
theorem NearestGuess.nearestMarker (guessed : r.NearestGuess id kind direct) :
    (r.withStrict false).NearestMarker id kind direct := by
  obtain ⟨before, base, chain, taken, others, first⟩ := guessed
  refine nearestMarker_iff.2 ⟨before, base, isChain_withStrict.2 chain, ?_, others, first⟩
  rw [kindOf_withStrict_false, taken, Option.some_or]

theorem IsChain.of_append {behind : List TypeSymbol} (chain : r.IsChain id (path ++ behind)) :
    r.IsChain id path :=
  isChain_iff_prefix_ancestry.2
    ((List.prefix_append ..).trans (isChain_iff_prefix_ancestry.1 chain))

theorem kindOf_of_unguessed {b : TypeSymbol} (unguessed : r.markers.guess b = none) :
    (r.withStrict false).markers.kindOf b = (r.withStrict true).markers.kindOf b := by
  rw [kindOf_withStrict_false, unguessed, Option.none_or]

/-- The nearest known marker stays the nearest, or a guess comes first. -/
theorem NearestMarker.relaxed (nearest : (r.withStrict true).NearestMarker id kind direct) :
    (r.withStrict false).NearestMarker id kind direct ∨
      ∃ kind direct, r.NearestGuess id kind direct := by
  obtain ⟨before, marker, chain, marked, others, first⟩ := nearestMarker_iff.1 nearest
  have whole := isChain_withStrict.1 chain
  cases found : before.find? fun b => (r.markers.guess b).isSome with
  | some base =>
    obtain ⟨taken, front, behind, rfl, earlier⟩ := List.find?_eq_some_iff_append.1 found
    obtain ⟨other, taken⟩ := Option.isSome_iff_exists.1 taken
    have beginning : r.IsChain id ((front ++ [base]) ++ (behind ++ [marker])) := by
      simpa using whole
    refine .inr ⟨other, _, front, base, beginning.of_append, taken, fun b member => ?_, rfl⟩
    rw [kindOf_of_unguessed (by simpa using earlier b member), others b (by simp [member])]
  | none =>
    have unmarked : ∀ b ∈ before, (r.withStrict false).markers.kindOf b = none := by
      intro b member
      have unguessed := List.find?_eq_none.1 found b member
      rw [kindOf_of_unguessed (by simpa using unguessed), others b member]
    cases taken : r.markers.guess marker with
    | some other => exact .inr ⟨other, _, before, marker, whole, taken, unmarked, rfl⟩
    | none =>
      refine .inl (nearestMarker_iff.2
        ⟨before, marker, isChain_withStrict.2 whole, ?_, unmarked, first⟩)
      rw [kindOf_of_unguessed taken, marked]

/-- Every type on a path but the last has a base. -/
theorem BasePath.base_ne_none {last : TypeSymbol} (linked : r.BasePath id (before ++ [last]))
    (member : base ∈ before) : base ∈ r.compilation.types ∧ base.base ≠ none := by
  induction before generalizing id with
  | nil => cases member
  | cons first before ih =>
    obtain ⟨link, further⟩ := basePath_cons.1 linked
    rcases List.mem_cons.1 member with rfl | later
    · refine ⟨List.mem_of_getElem? (get?_of_directBase link), fun none => ?_⟩
      have ends : r.directBase base.id = Option.none := by
        rw [directBase, baseOf_of_directBase link, none, Option.bind_none]
      cases before <;> simp [basePath_cons, ends] at further
    · exact ih further later

/-- Where external types have no base and markers have names of their own, no guess comes before a
marker that is known. -/
theorem NearestMarker.unguessed (nearest : (r.withStrict true).NearestMarker id kind direct)
    (apart : r.markers.NamesApart)
    (ends : ∀ t ∈ r.compilation.types, t.kind = .external → t.base = none) :
    (r.withStrict false).NearestMarker id kind direct := by
  obtain ⟨before, marker, chain, marked, others, first⟩ := nearestMarker_iff.1 nearest
  refine nearestMarker_iff.2 ⟨before, marker, isChain_withStrict.2 (isChain_withStrict.1 chain), ?_,
    fun b member => ?_, first⟩
  · rw [kindOf_of_unguessed (MarkerSet.guess_eq_none_of_kindOf apart marked), marked]
  · obtain ⟨known, based⟩ := chain.linked.base_ne_none member
    have unguessed : r.markers.guess b = none := by
      cases guessed : r.markers.guess b with
      | none => rfl
      | some other => exact absurd (ends b known (MarkerSet.external_of_guess guessed)) based
    rw [kindOf_of_unguessed unguessed, others b member]

/-- A type that derives from the root and no marker has a root as its base. -/
theorem exists_root_of_classify (rooted : r.classify id = .rootDerived) :
    r.IsDeclared id ∧ ∃ top, r.directBase id = some top ∧ r.markers.isMarker top .root = true := by
  rw [classify] at rooted
  split at rooted
  · next declared =>
    refine ⟨?_, ?_⟩
    · cases found : r.compilation.get? id with
      | none => simp [found] at declared
      | some t => exact ⟨t, found, by simpa [found] using declared⟩
    · split at rooted
      · next made =>
        obtain ⟨kind, direct, -, made⟩ := classifyFrom_ancestry_iff.1 made
        rw [rooted] at made
        cases kind <;> cases made
      · cases top : r.directBase id with
        | none => simp [top] at rooted
        | some base => exact ⟨base, rfl, by simpa [top] using rooted⟩
  · cases rooted

theorem classify_rootDerived_relaxed (rooted : (r.withStrict true).classify id = .rootDerived) :
    (r.withStrict false).classify id = .rootDerived := by
  obtain ⟨declared, top, link, marked⟩ := exists_root_of_classify rooted
  have relaxed := MarkerSet.isMarker_relaxed marked
  have lenient : (r.withStrict false).markers.isMarker top .root = true := relaxed
  rw [classify_of_root (r := r.withStrict false) declared link (MarkerSet.name_of_isMarker lenient),
    if_pos lenient]

/-- What the nearest marker makes of a type does not hang on how strict identity is. -/
theorem classify_eq_of_nearestMarker (declared : r.IsDeclared id)
    (strict : (r.withStrict true).NearestMarker id kind direct)
    (relaxed : (r.withStrict false).NearestMarker id kind direct) :
    (r.withStrict false).classify id = (r.withStrict true).classify id :=
  Option.some.inj ((relaxed.classifyBy_eq (r := r.withStrict false) declared).symm.trans
    (strict.classifyBy_eq (r := r.withStrict true) declared))

end Resolver

/-- A type that strict identity finds to be due to a marker keeps its classification under lenient
identity unless a guess comes first, and then it is what the guess makes of it. No guess comes first
in a compilation built from files when no markers share a simple name. A type that derives from the
root still does. -/
theorem Resolver.classify_relaxed (r : Resolver) (id : TypeId) :
    (((r.withStrict true).classify id).isMarked = true →
      ((∀ kind direct, ¬ r.NearestGuess id kind direct) →
        (r.withStrict false).classify id = (r.withStrict true).classify id) ∧
      (∀ kind direct, r.NearestGuess id kind direct →
        r.classifyBy id direct kind = some ((r.withStrict false).classify id)) ∧
      (r.markers.NamesApart → ∀ root files, r.compilation = .build root files →
        (r.withStrict false).classify id = (r.withStrict true).classify id)) ∧
    ((r.withStrict true).classify id = .rootDerived →
      (r.withStrict false).classify id = .rootDerived) := by
  refine ⟨fun marked => ?_, classify_rootDerived_relaxed⟩
  obtain ⟨declared, kind, direct, nearest⟩ := isMarked_classify_iff.1 marked
  refine ⟨fun unguessed => ?_, fun kind direct guessed => ?_, fun apart root files built => ?_⟩
  · rcases nearest.relaxed with kept | ⟨other, first, guessed⟩
    · exact classify_eq_of_nearestMarker declared nearest kept
    · exact absurd guessed (unguessed other first)
  · exact guessed.nearestMarker.classifyBy_eq (r := r.withStrict false) declared
  · have ends : ∀ t ∈ r.compilation.types, t.kind = .external → t.base = none := by
      rw [built]
      exact fun t => Binding.base_of_external_build
    exact classify_eq_of_nearestMarker declared nearest (nearest.unguessed apart ends)

namespace Resolver

/-- A class whose base is the first of the given undeclared types, seen with some markers. -/
def orderPlaced (m : MarkerIdentities) (others : List TypeSymbol) : Resolver :=
  ⟨.ofTypes (⟨0, "OrderPlaced", none, .plainClass, [], some ⟨"", some 1, []⟩, [], [],
    some ⟨⟨"a.cs"⟩, 2, 7⟩, [], none⟩ :: others) [], m.markerSet⟩

def undeclared (qualifier : Option String) (name : String) (imports : List String)
    (base : Option TypeRef) : TypeSymbol :=
  ⟨0, name, qualifier, .external, [], base, [], [], none, imports, none⟩

def sharedMarkers : MarkerIdentities :=
  { MarkerIdentities.standard with command := "Orders.Message", event := "Billing.Message" }

/-- The base is the event of its name, whose namespace is imported. -/
def billingMessage : Resolver :=
  orderPlaced sharedMarkers [undeclared none "Message" ["Billing"] none]

/-- The base may be any type of the command's name, and derives from the event. -/
def commandlike : Resolver :=
  orderPlaced .standard [undeclared none "Command" [] (some ⟨"Event", some 2, []⟩),
    undeclared (some "Slalom.Stacks.Messaging") "Event" [] none]

def importedEvent : Resolver :=
  orderPlaced .standard [undeclared none "Event" ["Slalom.Stacks.Messaging"] none]

def objectDerived : Resolver :=
  orderPlaced .standard [undeclared (some "System") "Object" [] none]

def strictConfig : Config :=
  .ofMarkers { MarkerIdentities.standard with strict := true }

/-- A class that is built from a file, with the event as its base. -/
def builtEvent : Resolver :=
  (Config.ofMarkers .standard).resolver [Config.placedFile [] [Config.messagingEvent]]

/-- A type that is due to a marker under strict identity and something else under lenient one. -/
def Overturned (r : Resolver) (id : TypeId) : Prop :=
  ((r.withStrict true).classify id).isMarked = true ∧
    (r.withStrict false).classify id ≠ (r.withStrict true).classify id

end Resolver

/-- A command is guessed where the event of the same simple name is imported, and before an event
further along the chain, though the identities of the markers are valid. -/
theorem Resolver.known_markers_overturned :
    (Config.ofMarkers sharedMarkers).check = .ok () ∧ billingMessage.Overturned 0 ∧
      (Config.ofMarkers .standard).check = .ok () ∧ commandlike.Overturned 0 :=
  ⟨rfl, ⟨by decide, by decide⟩, rfl, by decide, by decide⟩

open Config Binding in
theorem Resolver.classify_relaxed_orderPlaced :
    (((billingMessage.withStrict true).classify 0).isMarked = true ∧
      billingMessage.NearestGuess 0 .command true ∧
      billingMessage.classifyBy 0 true .command
        = some ((billingMessage.withStrict false).classify 0)) ∧
    (((importedEvent.withStrict true).classify 0).isMarked = true ∧
      (∀ kind direct, ¬ importedEvent.NearestGuess 0 kind direct) ∧
      (importedEvent.withStrict false).classify 0 = (importedEvent.withStrict true).classify 0) ∧
    ((objectDerived.withStrict true).classify 0 = .rootDerived ∧
      (objectDerived.withStrict false).classify 0 = .rootDerived) ∧
    ∃ t ∈ (Compilation.build "System.Object" [placedFile [] [messagingEvent]]).declaredTypes,
      (builtEvent.withStrict true).classify t.id = .event ∧
        (builtEvent.withStrict false).classify t.id = .event := by
  have guessed : billingMessage.NearestGuess 0 .command true :=
    ⟨[], { undeclared none "Message" ["Billing"] none with id := 1 },
      isChain_iff_prefix_ancestry.2 ⟨[], rfl⟩, by decide, by simp, rfl⟩
  have unguessed (kind : MarkerKind) (direct : Bool) :
      ¬ importedEvent.NearestGuess 0 kind direct := by
    rintro ⟨before, base, chain, taken, -⟩
    have alone : importedEvent.ancestry 0
        = [{ undeclared none "Event" ["Slalom.Stacks.Messaging"] none with id := 1 }] := rfl
    have member := (isChain_iff_prefix_ancestry.1 chain).subset (List.mem_concat_self ..)
    rw [alone] at member
    obtain rfl := List.mem_singleton.1 member
    have none : importedEvent.markers.guess
        { undeclared none "Event" ["Slalom.Stacks.Messaging"] none with id := 1 } = none := by
      decide
    rw [none] at taken
    cases taken
  refine ⟨⟨by decide, guessed, ?_⟩, ⟨by decide, unguessed, ?_⟩, ⟨by decide, ?_⟩, ?_⟩
  · exact ((classify_relaxed billingMessage 0).1 (by decide)).2.1 .command true guessed
  · exact ((classify_relaxed importedEvent 0).1 (by decide)).1 unguessed
  · exact (classify_relaxed objectDerived 0).2 (by decide)
  · have member := mem_groupsOf_placedFile [] [messagingEvent]
    obtain ⟨t, declared, same⟩ := exists_placed "System.Object" [] [messagingEvent]
    have decided : (strictConfig.resolver [placedFile [] [messagingEvent]]).DerivesDirectly t.id
        .event ↔ hasInterfaceName "Event" = false ∧
          strictConfig.markers.markerSet.Recognizes .event :=
      derivesDirectly_iff (c := strictConfig) member (.inl rfl) declared same namesApart_standard
        (unnamed_standard [] [messagingEvent]) (by simp) rfl rfl rfl ⟨rfl, rfl, by decide⟩
    obtain ⟨-, -, -, made⟩ := decided.2 ⟨by decide, .inl rfl⟩
    have event : (builtEvent.withStrict true).classify t.id = .event := (Option.some.inj made).symm
    have marked : ((builtEvent.withStrict true).classify t.id).isMarked = true := by
      rw [event]
      rfl
    refine ⟨t, declared, event, ?_⟩
    have kept := ((classify_relaxed builtEvent t.id).1 marked).2.2 namesApart_standard
      "System.Object" [placedFile [] [messagingEvent]] rfl
    exact kept.trans event

end ConventionLint
