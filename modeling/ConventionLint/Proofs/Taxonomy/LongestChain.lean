import ConventionLint.Proofs.Taxonomy.BaseChain

/-!
# The longest chain of base types

A walk along resolved base links needs no bound: it stops before the root's name, before a type
that it has seen and where a link leads nowhere, and every step it takes uses up a type. So it comes
to an end on every graph, and what it has found by then is the longest chain. Where no type repeats
on the way up, that chain is the base followed by the base's own.
-/
namespace ConventionLint.Resolver

/-- The base type that a walk comes to from a reference, `seen` having occurred. -/
def next? (r : Resolver) (seen : List TypeId) (reference : Option TypeRef) : Option TypeSymbol :=
  (reference.bind r.follow).bind fun base =>
    if base.name = (r.markers.marker .root).name || seen.contains base.id then none else some base

/-- The base types that a walk finds on its way from a reference to where it stops. -/
inductive Walks (r : Resolver) : List TypeId → Option TypeRef → List TypeSymbol → Prop
  | stop {seen : List TypeId} {reference : Option TypeRef} :
      r.next? seen reference = none → Walks r seen reference []
  | step {seen : List TypeId} {reference : Option TypeRef} {base : TypeSymbol}
      {further : List TypeSymbol} :
      r.next? seen reference = some base → Walks r (base.id :: seen) base.base further →
      Walks r seen reference (base :: further)

/-- What a walk without any bound finds, unless it goes on for ever. -/
noncomputable def walk? (r : Resolver) (seen : List TypeId) (reference : Option TypeRef) :
    Option (List TypeSymbol) :=
  open Classical in
  if ends : ∃ found, r.Walks seen reference found then some ends.choose else none

/-- No type occurs twice on the way up from a type, however far that goes. -/
def NoneRepeats (r : Resolver) (id : TypeId) : Prop :=
  ∀ path, r.BasePath id path → (path.map (·.id)).Nodup

variable {r : Resolver} {id : TypeId} {base : TypeSymbol} {path : List TypeSymbol}

theorem walks_of_unresolved {seen : List TypeId} (unresolved : r.directBase id = none) :
    r.Walks seen (r.baseOf id) [] :=
  .stop (congrArg (Option.bind · _) unresolved)

theorem next?_of_directBase {seen : List TypeId} (link : r.directBase id = some base) :
    r.next? seen (r.baseOf id) =
      if base.name = (r.markers.marker .root).name || seen.contains base.id then none
      else some base :=
  congrArg (Option.bind · _) link

theorem Walks.unique {seen : List TypeId} {reference : Option TypeRef} {found : List TypeSymbol}
    (walk : r.Walks seen reference path) (other : r.Walks seen reference found) : path = found := by
  induction walk generalizing found with
  | stop nowhere =>
    cases other with
    | stop => rfl
    | step next => cases nowhere.symm.trans next
  | step next _ ih =>
    cases other with
    | stop nowhere => cases nowhere.symm.trans next
    | step same further =>
      obtain rfl := Option.some.inj (next.symm.trans same)
      rw [ih further]

theorem walk?_eq_some_iff {seen : List TypeId} {reference : Option TypeRef} :
    r.walk? seen reference = some path ↔ r.Walks seen reference path := by
  rw [walk?]
  split
  · next ends =>
    rw [Option.some.injEq]
    exact ⟨fun same => same ▸ ends.choose_spec, fun walk => ends.choose_spec.unique walk⟩
  · next endless => exact ⟨nofun, fun walk => absurd ⟨path, walk⟩ endless⟩

/-- A limit that covers the types not seen is never reached. -/
theorem walks_ancestryFrom {limit : Nat} (id : TypeId) (seen : List TypeId)
    (bounded : ∀ id ∈ seen, id < r.compilation.types.length) (distinct : seen.Nodup)
    (enough : r.compilation.types.length < limit + seen.length) :
    r.Walks seen (r.baseOf id) (r.ancestryFrom limit seen (r.baseOf id)) := by
  induction limit generalizing seen id with
  | zero =>
    have counted := length_le_of_nodup distinct bounded
    omega
  | succ limit ih =>
    cases link : r.directBase id with
    | none =>
      rw [ancestryFrom_of_unresolved link]
      exact walks_of_unresolved link
    | some base =>
      rw [ancestryFrom_of_directBase link]
      split
      · next stops => exact .stop ((next?_of_directBase link).trans (if_pos stops))
      · next goes =>
        have fresh : base.id ∉ seen := by simp_all
        have inTable := id_lt_of_get? (get?_of_directBase link)
        refine .step ((next?_of_directBase link).trans (if_neg goes)) ?_
        rw [← baseOf_of_directBase link]
        exact ih base.id (base.id :: seen) (List.forall_mem_cons.2 ⟨inTable, bounded⟩)
          (List.nodup_cons.2 ⟨fresh, distinct⟩) (by rw [List.length_cons]; omega)

theorem walk?_ancestry (r : Resolver) (id : TypeId) :
    r.walk? [id] (r.baseOf id) = some (r.ancestry id) := by
  rw [walk?_eq_some_iff]
  cases link : r.directBase id with
  | none =>
    rw [ancestry, ancestryFrom_of_unresolved link]
    exact walks_of_unresolved link
  | some base =>
    have inTable : id < r.compilation.types.length := by
      obtain ⟨reference, written, -⟩ := Option.bind_eq_some_iff.1 link
      obtain ⟨t, found, -⟩ := Option.bind_eq_some_iff.1 written
      exact id_lt_of_get? found
    exact walks_ancestryFrom id [id] (by simpa using inTable) (by simp) (Nat.lt_add_one _)

theorem IsChain.length_lt (chain : r.IsChain id path) (present : id < r.compilation.types.length) :
    path.length < r.compilation.types.length := by
  have bounded : ∀ {id} {path : List TypeSymbol}, r.BasePath id path →
      ∀ base ∈ path, base.id < r.compilation.types.length := by
    intro id path linked
    induction linked with
    | nil => simp
    | cons link _ ih =>
      exact List.forall_mem_cons.2 ⟨id_lt_of_get? (get?_of_directBase link), ih⟩
  have counted := length_le_of_nodup chain.distinct
    (List.forall_mem_cons.2 ⟨present, List.forall_mem_map.2 (bounded chain.linked)⟩)
  rwa [List.length_cons, List.length_map] at counted

theorem IsChain.tail (chain : r.IsChain id (base :: path)) : r.IsChain base.id path where
  linked := (basePath_cons.1 chain.linked).2
  belowRoot := fun b member => chain.belowRoot b (List.mem_cons_of_mem _ member)
  distinct := (List.nodup_cons.1 chain.distinct).2

theorem BasePath.concat {last : TypeSymbol} (linked : r.BasePath id (path ++ [last]))
    (link : r.directBase last.id = some base) : r.BasePath id (path ++ [last] ++ [base]) := by
  induction path generalizing id with
  | nil =>
    obtain ⟨first, -⟩ := basePath_cons.1 linked
    exact basePath_cons.2 ⟨first, basePath_cons.2 ⟨link, .nil _⟩⟩
  | cons next path ih =>
    obtain ⟨first, rest⟩ := basePath_cons.1 linked
    exact basePath_cons.2 ⟨first, ih rest⟩

theorem BasePath.of_append {front behind : List TypeSymbol}
    (linked : r.BasePath id (front ++ behind)) : r.BasePath id front := by
  induction front generalizing id with
  | nil => exact .nil id
  | cons next front ih =>
    obtain ⟨first, rest⟩ := basePath_cons.1 linked
    exact basePath_cons.2 ⟨first, ih rest⟩

/-- A type that comes back to itself comes back to its base as well. -/
theorem NoneRepeats.notMem (once : r.NoneRepeats id) (linked : r.BasePath id (base :: path)) :
    id ∉ (base :: path).map (·.id) := by
  intro member
  obtain ⟨last, inside, same⟩ := List.mem_map.1 member
  obtain ⟨front, behind, parts⟩ := List.append_of_mem inside
  have link : r.directBase last.id = some base := same ▸ (basePath_cons.1 linked).1
  have around : r.BasePath id (front ++ [last] ++ [base]) := by
    have longer : r.BasePath id (front ++ [last] ++ behind) := by simpa [← parts] using linked
    exact BasePath.concat longer.of_append link
  have twice := once _ around
  rw [List.map_append, List.nodup_append] at twice
  refine twice.2.2 base.id ?_ base.id (by simp) rfl
  cases front with
  | nil =>
    obtain rfl : base = last := (List.cons.inj parts).1
    simp
  | cons first front =>
    obtain rfl : base = first := (List.cons.inj parts).1
    simp

theorem NoneRepeats.isChain_cons (once : r.NoneRepeats id) (link : r.directBase id = some base)
    (below : base.name ≠ (r.markers.marker .root).name) (chain : r.IsChain base.id path) :
    r.IsChain id (base :: path) where
  linked := .cons link chain.linked
  belowRoot := List.forall_mem_cons.2 ⟨below, chain.belowRoot⟩
  distinct := List.nodup_cons.2 ⟨once.notMem (.cons link chain.linked), chain.distinct⟩

theorem NoneRepeats.ancestry_eq (once : r.NoneRepeats id) (nonempty : r.ancestry id ≠ []) :
    ∃ base, r.directBase id = some base ∧ r.ancestry id = base :: r.ancestry base.id := by
  obtain ⟨base, rest, whole⟩ := List.exists_cons_of_ne_nil nonempty
  have chain : r.IsChain id (base :: rest) :=
    isChain_iff_prefix_ancestry.2 (whole ▸ List.prefix_refl _)
  obtain ⟨link, -⟩ := basePath_cons.1 chain.linked
  have below := chain.belowRoot base List.mem_cons_self
  have further : base :: r.ancestry base.id <+: base :: rest := by
    rw [← whole, ← isChain_iff_prefix_ancestry]
    exact once.isChain_cons link below (isChain_iff_prefix_ancestry.2 List.prefix_rfl)
  have back : rest <+: r.ancestry base.id := isChain_iff_prefix_ancestry.1 chain.tail
  have forth : r.ancestry base.id <+: rest := (List.cons_prefix_cons.1 further).2
  exact ⟨base, link, by rw [whole, back.eq_of_length_le forth.length_le]⟩

/-- On every graph the walk comes to an end, and what it has found is the longest chain: the chains
of a type are what its ancestry begins with. A type of the compilation has fewer base types than
there are types; and if none repeats on the way up, its ancestry is its base and the base's own. -/
theorem ancestry_longest (r : Resolver) (id : TypeId) :
    r.walk? [id] (r.baseOf id) = some (r.ancestry id) ∧
    r.IsChain id (r.ancestry id) ∧ (∀ path, r.IsChain id path ↔ path <+: r.ancestry id) ∧
    (id < r.compilation.types.length → (r.ancestry id).length < r.compilation.types.length) ∧
    (r.ancestry id ≠ [] → r.NoneRepeats id →
      ∃ base, r.directBase id = some base ∧ r.ancestry id = base :: r.ancestry base.id) := by
  have longest : r.IsChain id (r.ancestry id) := isChain_iff_prefix_ancestry.2 List.prefix_rfl
  exact ⟨walk?_ancestry r id, longest, fun path => isChain_iff_prefix_ancestry, longest.length_lt,
    fun nonempty once => once.ancestry_eq nonempty⟩

def classOver (name : String) (target : TypeId) : TypeSymbol :=
  ⟨0, name, none, .plainClass, [], some ⟨"Base", some target, []⟩, [], [], none, [], none⟩

/-- Three classes one above the other, the last below a type that is not there, and a class that is
its own base. -/
def ladderAndRing : Resolver where
  compilation := .ofTypes
    [classOver "Leaf" 1, classOver "Middle" 2, classOver "Top" 9, classOver "Ring" 3] []
  markers := ⟨fun _ => .ofIdentity "System.Object", false⟩

theorem ancestry_longest_ladder :
    (ladderAndRing.ancestry 3).map (·.name) = [] ∧
    (ladderAndRing.ancestry 0).map (·.name) = ["Middle", "Top"] ∧ ladderAndRing.NoneRepeats 0 ∧
    ∃ base, ladderAndRing.directBase 0 = some base ∧
      ladderAndRing.ancestry 0 = base :: ladderAndRing.ancestry base.id := by
  have names : (ladderAndRing.ancestry 0).map (·.name) = ["Middle", "Top"] := by decide +kernel
  have once : ladderAndRing.NoneRepeats 0 := by
    rintro path (_ | ⟨⟨⟩, _ | ⟨⟨⟩, _ | ⟨⟨⟩, -⟩⟩⟩) <;> decide +kernel
  have nonempty : ladderAndRing.ancestry 0 ≠ [] := by
    intro empty
    rw [empty] at names
    cases names
  exact ⟨by decide +kernel, names, once, (ancestry_longest _ 0).2.2.2.2 nonempty once⟩

end ConventionLint.Resolver
