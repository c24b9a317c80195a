import ConventionLint.Proofs.Analysis.Violation
import Mathlib.Data.List.Forall2

/-!
# Corresponding type graphs

Two type graphs may hold the same declared types under other numbers and beside other types. What
counts is a correspondence between their types that is one to one, that base links and first type
arguments respect, and that reaches every declared type. Conventions cannot tell such graphs apart.
-/
namespace ConventionLint

/-- Two types tell the same of themselves, their numbers and links apart. -/
structure TypeSymbol.Alike (a b : TypeSymbol) : Prop where
  name : a.name = b.name
  qualifier : a.qualifier = b.qualifier
  kind : a.kind = b.kind
  typeParameters : a.typeParameters = b.typeParameters
  members : a.members = b.members
  location : a.location = b.location
  imports : a.imports = b.imports

namespace TypeSymbol

variable {a b : TypeSymbol}

theorem Alike.symm (h : Alike a b) : Alike b a :=
  ⟨h.name.symm, h.qualifier.symm, h.kind.symm, h.typeParameters.symm, h.members.symm,
    h.location.symm, h.imports.symm⟩

theorem Alike.isMarker (h : Alike a b) (markers : MarkerSet) (kind : MarkerKind) :
    markers.isMarker a kind = markers.isMarker b kind := by
  simp only [MarkerSet.isMarker, qualifiedName, h.kind, h.name, h.qualifier, h.imports]

theorem Alike.kindOf (h : Alike a b) (markers : MarkerSet) :
    markers.kindOf a = markers.kindOf b := by
  rw [MarkerSet.kindOf, MarkerSet.kindOf, funext (h.isMarker markers)]

theorem Alike.sameExternal {c d : TypeSymbol} (first : Alike a b) (second : Alike c d) :
    Compilation.sameExternal a c = Compilation.sameExternal b d := by
  simp only [Compilation.sameExternal, first.kind, first.qualifier, first.name,
    first.typeParameters, second.kind, second.qualifier, second.name, second.typeParameters]

end TypeSymbol

def Compilation.AlikeIn (c c' : Compilation) (id id' : TypeId) : Prop :=
  ∃ a b, c.get? id = some a ∧ c'.get? id' = some b ∧ a.Alike b

/-- One classification in two compilations, where the types it names are alike. -/
inductive Taxonomy.Alike (c c' : Compilation) : Taxonomy → Taxonomy → Prop
  | rootDerived : Alike c c' .rootDerived .rootDerived
  | command (direct : Bool) : Alike c c' (.command direct) (.command direct)
  | event : Alike c c' .event .event
  | useCase {command command' : Option TypeId} (direct : Bool) :
      Option.Rel (c.AlikeIn c') command command' →
      Alike c c' (.useCase command direct) (.useCase command' direct)
  | businessRule {target target' : Option TypeId} : Option.Rel (c.AlikeIn c') target target' →
      Alike c c' (.businessRule target) (.businessRule target')
  | unclassified : Alike c c' .unclassified .unclassified

namespace Resolver

variable {r r' : Resolver} {R : TypeSymbol → TypeSymbol → Prop} {a b x y : TypeSymbol}

/-- Types of `r` with types of `r'` that markers cannot tell from them and that stand on such
again. -/
structure Linked (r r' : Resolver) (R : TypeSymbol → TypeSymbol → Prop) : Prop where
  markers : r.markers = r'.markers
  name {a b : TypeSymbol} : R a b → a.name = b.name
  kindOf {a b : TypeSymbol} : R a b → r.markers.kindOf a = r.markers.kindOf b
  apart {a b x y : TypeSymbol} : R a b → R x y → b.id = y.id → a.id = x.id
  base {a b x : TypeSymbol} : R a b → r.directBase a.id = some x →
    ∃ y, r'.directBase b.id = some y ∧ R x y

namespace Linked

theorem exists_of_mem {path other : List TypeSymbol} (paths : List.Forall₂ R path other)
    (member : y ∈ other) : ∃ x ∈ path, R x y := by
  induction paths with
  | nil => cases member
  | cons first paths ih =>
    rcases List.mem_cons.1 member with rfl | later
    · exact ⟨_, by simp, first⟩
    · obtain ⟨x, present, related⟩ := ih later
      exact ⟨x, List.mem_cons_of_mem _ present, related⟩

variable (h : r.Linked r' R)
include h

theorem basePath {path : List TypeSymbol} (related : R a b) (linked : r.BasePath a.id path) :
    ∃ other, r'.BasePath b.id other ∧ List.Forall₂ R path other := by
  induction path generalizing a b with
  | nil => exact ⟨[], .nil _, .nil⟩
  | cons base path ih =>
    obtain ⟨link, linked⟩ := basePath_cons.1 linked
    obtain ⟨base', link', bases⟩ := h.base related link
    obtain ⟨other, linked', paths⟩ := ih bases linked
    exact ⟨base' :: other, .cons link' linked', .cons bases paths⟩

theorem nodup_ids {path other : List TypeSymbol} (paths : List.Forall₂ R path other)
    (distinct : (path.map (·.id)).Nodup) : (other.map (·.id)).Nodup := by
  induction paths with
  | nil => exact List.nodup_nil
  | cons first paths ih =>
    rw [List.map_cons, List.nodup_cons] at distinct ⊢
    refine ⟨fun member => distinct.1 ?_, ih distinct.2⟩
    obtain ⟨y, present, same⟩ := List.mem_map.1 member
    obtain ⟨x, met, second⟩ := exists_of_mem paths present
    exact List.mem_map.2 ⟨x, met, h.apart second first same⟩

theorem isChain {path : List TypeSymbol} (related : R a b) (chain : r.IsChain a.id path) :
    ∃ other, r'.IsChain b.id other ∧ List.Forall₂ R path other := by
  obtain ⟨other, linked, paths⟩ := h.basePath related chain.linked
  refine ⟨other, ⟨linked, ?_, ?_⟩, paths⟩
  · intro base member
    obtain ⟨x, met, same⟩ := exists_of_mem paths member
    rw [← h.name same, ← h.markers]
    exact chain.belowRoot x met
  · exact h.nodup_ids (.cons related paths) chain.distinct

theorem nearestMarker {kind : MarkerKind} {direct : Bool} (related : R a b)
    (nearest : r.NearestMarker a.id kind direct) : r'.NearestMarker b.id kind direct := by
  obtain ⟨before, marker, chain, marked, deciding, others, rfl⟩ := nearest
  obtain ⟨path, chain', paths⟩ := h.isChain related chain
  obtain ⟨before', behind, befores, behinds, rfl⟩ : ∃ before' behind,
      List.Forall₂ R before before' ∧ List.Forall₂ R [marker] behind ∧ path = before' ++ behind :=
    ⟨path.take before.length, path.drop before.length,
      (List.forall₂_take_append path before [marker] paths.flip).flip,
      (List.forall₂_drop_append path before [marker] paths.flip).flip,
      (List.take_append_drop _ _).symm⟩
  cases behinds with
  | cons same none =>
    cases none
    refine ⟨before', _, chain', ?_, deciding, ?_, ?_⟩
    · rw [← h.markers, ← h.kindOf same, marked]
    · intro base member kind kindOf
      obtain ⟨x, met, alike⟩ := exists_of_mem befores member
      rw [← h.markers, ← h.kindOf alike] at kindOf
      exact others x met kind kindOf
    · cases befores <;> rfl

end Linked

/-- Every declared type of `r` has one like it in `r'`, with links to types that have. -/
structure Simulates (r r' : Resolver) (R : TypeSymbol → TypeSymbol → Prop) : Prop where
  markers : r.markers = r'.markers
  alike {a b : TypeSymbol} : R a b → a.Alike b
  present {a b : TypeSymbol} : R a b → a ∈ r.compilation.types
  unique {a b x : TypeSymbol} : R a b → R x b → a = x
  base {a b x : TypeSymbol} : R a b → r.directBase a.id = some x →
    ∃ y, r'.directBase b.id = some y ∧ R x y
  argument {a b x : TypeSymbol} : R a b → r.firstArgument a.id = some x →
    ∃ y, r'.firstArgument b.id = some y ∧ R x y
  declared {a : TypeSymbol} : a ∈ r.compilation.declaredTypes → ∃ b, R a b

structure Corresponds (r r' : Resolver) (R : TypeSymbol → TypeSymbol → Prop) : Prop where
  forth : r.Simulates r' R
  back : r'.Simulates r fun b a => R a b

namespace Corresponds

variable (h : r.Corresponds r' R)
include h

theorem symm : r'.Corresponds r fun b a => R a b :=
  ⟨h.back, h.forth⟩

theorem declared (related : R a b) (declared : a ∈ r.compilation.declaredTypes) :
    b ∈ r'.compilation.declaredTypes := by
  rw [Compilation.mem_declaredTypes] at declared ⊢
  exact ⟨h.back.present related, (h.forth.alike related).kind ▸ declared.2⟩

/-- Numbers tell types apart on both sides alike. -/
theorem id_eq (first : R a b) (second : R x y) (same : a.id = x.id) : b.id = y.id := by
  obtain rfl := Compilation.eq_of_id_eq (h.forth.present first) (h.forth.present second) same
  rw [h.back.unique first second]

theorem linked : r.Linked r' R where
  markers := h.forth.markers
  name related := (h.forth.alike related).name
  kindOf related := (h.forth.alike related).kindOf r.markers
  apart first second same := h.symm.id_eq first second same
  base := h.forth.base

theorem nearestMarker {kind : MarkerKind} {direct : Bool} (related : R a b)
    (nearest : r.NearestMarker a.id kind direct) : r'.NearestMarker b.id kind direct :=
  h.linked.nearestMarker related nearest

theorem handles (related : R a b) (handles : r.Handles a x) : ∃ y, r'.Handles b y ∧ R x y := by
  obtain ⟨declared, nearest, argument, concrete⟩ := handles
  obtain ⟨y, argument', same⟩ := h.forth.argument related argument
  exact ⟨y, ⟨h.declared related declared, h.nearestMarker related nearest, argument',
    (h.forth.alike same).kind ▸ concrete⟩, same⟩

theorem targets (related : R a b) (targets : r.Targets a x) : ∃ y, r'.Targets b y ∧ R x y := by
  obtain ⟨declared, ⟨direct, nearest⟩, argument⟩ := targets
  obtain ⟨y, argument', same⟩ := h.forth.argument related argument
  have nearest' := h.nearestMarker related nearest
  exact ⟨y, ⟨h.declared related declared, ⟨direct, nearest'⟩, argument'⟩, same⟩

theorem sameCommand (first : R a b) (second : R x y) (same : Compilation.SameCommand a x) :
    Compilation.SameCommand b y := by
  rcases same with same | same
  · exact .inl (h.id_eq first second same)
  · exact .inr ((h.forth.alike first).sameExternal (h.forth.alike second) ▸ same)

theorem isMessage (related : R a b) (message : r.IsMessage a) : r'.IsMessage b := by
  rcases message with ⟨direct, nearest⟩ | ⟨useCase, handles⟩
  · exact .inl ⟨direct, h.nearestMarker related nearest⟩
  · obtain ⟨other, counterpart⟩ := h.forth.declared handles.1
    obtain ⟨y, handles', same⟩ := h.handles counterpart handles
    rw [h.back.unique same related] at handles'
    exact .inr ⟨other, handles'⟩

theorem uncovered (related : R a b)
    (bare : ∀ rule target, r.Targets rule target → ¬ Compilation.SameCommand target a) :
    ∀ rule target, r'.Targets rule target → ¬ Compilation.SameCommand target b := by
  intro rule target targets same
  obtain ⟨counterpart, met⟩ := h.back.declared targets.1
  obtain ⟨x, targets', found⟩ := h.symm.targets met targets
  exact bare counterpart x targets' (h.symm.sameCommand found related same)

theorem directBase (related : R a b) :
    Option.Rel R (r.directBase a.id) (r'.directBase b.id) := by
  cases found : r.directBase a.id with
  | some x =>
    obtain ⟨y, found', same⟩ := h.forth.base related found
    exact found' ▸ .some same
  | none =>
    cases found' : r'.directBase b.id with
    | none => exact .none
    | some y =>
      obtain ⟨x, other, -⟩ := h.back.base related found'
      cases found.symm.trans other

theorem firstArgument (related : R a b) :
    Option.Rel R (r.firstArgument a.id) (r'.firstArgument b.id) := by
  cases found : r.firstArgument a.id with
  | some x =>
    obtain ⟨y, found', same⟩ := h.forth.argument related found
    exact found' ▸ .some same
  | none =>
    cases found' : r'.firstArgument b.id with
    | none => exact .none
    | some y =>
      obtain ⟨x, other, -⟩ := h.back.argument related found'
      cases found.symm.trans other

/-- The longest chains go along with each other to their ends. -/
theorem ancestry (related : R a b) : List.Forall₂ R (r.ancestry a.id) (r'.ancestry b.id) := by
  obtain ⟨path, chain, paths⟩ :=
    h.linked.isChain related (isChain_iff_prefix_ancestry.2 List.prefix_rfl)
  obtain ⟨path', chain', paths'⟩ :=
    h.symm.linked.isChain related (isChain_iff_prefix_ancestry.2 List.prefix_rfl)
  have whole : path = r'.ancestry b.id := by
    refine (isChain_iff_prefix_ancestry.1 chain).eq_of_length_le ?_
    rw [← paths.length_eq, paths'.length_eq]
    exact (isChain_iff_prefix_ancestry.1 chain').length_le
  exact whole ▸ paths

theorem alikeIn (related : R a b) : r.compilation.AlikeIn r'.compilation a.id b.id :=
  ⟨a, b, Compilation.get?_iff_mem.2 (h.forth.present related),
    Compilation.get?_iff_mem.2 (h.back.present related), h.forth.alike related⟩

theorem commandArgument (related : R a b) : Option.Rel (r.compilation.AlikeIn r'.compilation)
    (r.commandArgument a.id) (r'.commandArgument b.id) := by
  rw [Resolver.commandArgument, Resolver.commandArgument]
  have links := h.firstArgument related
  generalize r.firstArgument a.id = one at links ⊢
  generalize r'.firstArgument b.id = other at links ⊢
  cases links with
  | none => exact .none
  | some same =>
    rw [Option.bind_some, Option.bind_some, (h.forth.alike same).kind]
    split
    · exact .none
    · exact .some (h.alikeIn same)

theorem classifyBy (related : R a b) (direct : Bool) (kind : MarkerKind) :
    Option.Rel (Taxonomy.Alike r.compilation r'.compilation)
      (r.classifyBy a.id direct kind) (r'.classifyBy b.id direct kind) := by
  cases kind with
  | root => exact .none
  | command => exact .some (.command direct)
  | event => exact .some .event
  | useCase =>
    refine .some (.useCase direct ?_)
    cases direct with
    | true => exact h.commandArgument related
    | false => exact .none
  | businessRule =>
    refine .some (.businessRule ?_)
    have links := h.firstArgument related
    generalize r.firstArgument a.id = one at links ⊢
    generalize r'.firstArgument b.id = other at links ⊢
    cases links with
    | none => exact .none
    | some same => exact .some (h.alikeIn same)

theorem classifyFrom {bases bases' : List TypeSymbol} (related : R a b)
    (paths : List.Forall₂ R bases bases') (direct : Bool) :
    Option.Rel (Taxonomy.Alike r.compilation r'.compilation)
      (r.classifyFrom a.id direct bases) (r'.classifyFrom b.id direct bases') := by
  induction paths generalizing direct with
  | nil => exact .none
  | @cons x y xs ys first paths ih =>
    rw [Resolver.classifyFrom, Resolver.classifyFrom, ← h.forth.markers,
      (h.forth.alike first).kindOf]
    cases r.markers.kindOf y with
    | none => exact ih false
    | some kind =>
      rw [Option.bind_some, Option.bind_some]
      have links := h.classifyBy related direct kind
      generalize r.classifyBy a.id direct kind = one at links ⊢
      generalize r'.classifyBy b.id direct kind = other at links ⊢
      cases links with
      | none => exact ih false
      | some same => exact .some same

/-- Corresponding types are classified alike. -/
theorem classify (related : R a b) :
    Taxonomy.Alike r.compilation r'.compilation (r.classify a.id) (r'.classify b.id) := by
  have kinds := (h.forth.alike related).kind
  have rooted (x y : TypeSymbol) (same : R x y) :
      r.markers.isMarker x .root = r'.markers.isMarker y .root := by
    rw [← h.forth.markers, (h.forth.alike same).isMarker]
  rw [Resolver.classify, Resolver.classify,
    Compilation.get?_iff_mem.2 (h.forth.present related),
    Compilation.get?_iff_mem.2 (h.back.present related), Option.any_some, Option.any_some, kinds]
  split
  · have links := h.classifyFrom related (h.ancestry related) true
    generalize r.classifyFrom a.id true _ = one at links ⊢
    generalize r'.classifyFrom b.id true _ = other at links ⊢
    cases links with
    | some same => exact same
    | none =>
      have links := h.directBase related
      generalize r.directBase a.id = one at links ⊢
      generalize r'.directBase b.id = other at links ⊢
      cases links with
      | none => exact .unclassified
      | some same =>
        rw [Option.any_some, Option.any_some, rooted _ _ same]
        dsimp only
        split
        · exact .rootDerived
        · exact .unclassified
  · exact .unclassified

end Corresponds

/-- Symbols of two type graphs that stand at the same place of corresponding declared types. -/
inductive SameSymbol (c : Compilation) (R : TypeSymbol → TypeSymbol → Prop) :
    SymbolRef → SymbolRef → Prop
  | type {a b : TypeSymbol} : a ∈ c.declaredTypes → R a b → SameSymbol c R (.type a.id) (.type b.id)
  | member {a b : TypeSymbol} (index : Nat) : a ∈ c.declaredTypes → R a b →
      SameSymbol c R (.member a.id index) (.member b.id index)

/-- What breaks a convention breaks it in a corresponding graph, with the same to be said of it. -/
theorem Corresponds.violates (h : r.Corresponds r' R) {s : SymbolRef} {f : Finding} {k : Convention}
    (broken : r.Violates s f k) :
    ∃ s', SameSymbol r.compilation R s s' ∧ r'.Violates s' f k := by
  cases k with
  | commandNaming =>
    obtain ⟨t, declared, rfl, nearest, suffixed, rfl⟩ := broken
    obtain ⟨u, related⟩ := h.forth.declared declared
    obtain ⟨name, -, -, -, -, location, -⟩ := h.forth.alike related
    exact ⟨.type u.id, .type declared related, u, h.declared related declared, rfl,
      h.nearestMarker related nearest, name ▸ suffixed, by rw [name, location]⟩
  | eventNaming =>
    obtain ⟨t, declared, rfl, ⟨direct, nearest⟩, suffixed, rfl⟩ := broken
    obtain ⟨u, related⟩ := h.forth.declared declared
    obtain ⟨name, -, -, -, -, location, -⟩ := h.forth.alike related
    exact ⟨.type u.id, .type declared related, u, h.declared related declared, rfl,
      ⟨direct, h.nearestMarker related nearest⟩, name ▸ suffixed, by rw [name, location]⟩
  | mutableProperty =>
    obtain ⟨owner, declared, index, property, found, rfl, message, settable, rfl⟩ := broken
    obtain ⟨u, related⟩ := h.forth.declared declared
    have members := (h.forth.alike related).members
    exact ⟨.member u.id index, .member index declared related, u, h.declared related declared,
      index, property, members ▸ found, rfl, h.isMessage related message, settable, rfl⟩
  | messageField =>
    obtain ⟨owner, declared, index, field, found, rfl, ⟨direct, nearest⟩, written, rfl⟩ := broken
    obtain ⟨u, related⟩ := h.forth.declared declared
    obtain ⟨name, -, -, -, members, -, -⟩ := h.forth.alike related
    exact ⟨.member u.id index, .member index declared related, u, h.declared related declared,
      index, field, members ▸ found, rfl, ⟨direct, h.nearestMarker related nearest⟩, written,
      by rw [name]⟩
  | missingBusinessRule =>
    obtain ⟨t, declared, rfl, command, handles, bare, rfl⟩ := broken
    obtain ⟨u, related⟩ := h.forth.declared declared
    obtain ⟨other, handles', same⟩ := h.handles related handles
    obtain ⟨name, qualifier, -, -, -, location, -⟩ := h.forth.alike related
    exact ⟨.type u.id, .type declared related, u, h.declared related declared, rfl, other, handles',
      h.uncovered same bare, by rw [name, qualifier, location, (h.forth.alike same).name]⟩
  | missingImplementation =>
    obtain ⟨t, declared, rfl, ⟨command, handles⟩, unwritten, rfl⟩ := broken
    obtain ⟨u, related⟩ := h.forth.declared declared
    obtain ⟨other, handles', -⟩ := h.handles related handles
    obtain ⟨name, -, -, -, members, location, -⟩ := h.forth.alike related
    exact ⟨.type u.id, .type declared related, u, h.declared related declared, rfl,
      ⟨other, handles'⟩, members ▸ unwritten, by rw [name, location]⟩

end Resolver

end ConventionLint
