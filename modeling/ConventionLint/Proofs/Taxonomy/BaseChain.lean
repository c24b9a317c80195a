import ConventionLint.Taxonomy.Classification
import Mathlib.Data.List.Perm.Subperm
import Mathlib.Data.List.Range

/-!
# Chains of base types

A chain follows resolved base links, stays below every type that bears the root's simple name and
never comes back to a type. Types link to one base at most, so the chains of a type are the
beginnings of a longest one, and that is its ancestry. Cyclic and dangling links need no care: a
chain has fewer members than the compilation has types.
-/
namespace ConventionLint.Resolver

/-- Base types from the nearest on, each the resolved base of the one before. -/
inductive BasePath (r : Resolver) : TypeId → List TypeSymbol → Prop
  | nil (id : TypeId) : BasePath r id []
  | cons {id : TypeId} {base : TypeSymbol} {path : List TypeSymbol} :
      r.directBase id = some base → BasePath r base.id path → BasePath r id (base :: path)

/-- A path of base types below the root on which nothing repeats. -/
structure IsChain (r : Resolver) (id : TypeId) (path : List TypeSymbol) : Prop where
  linked : r.BasePath id path
  belowRoot : ∀ base ∈ path, base.name ≠ (r.markers.marker .root).name
  distinct : (id :: path.map (·.id)).Nodup

variable {r : Resolver} {id : TypeId} {base : TypeSymbol} {path : List TypeSymbol}

theorem get?_of_follow {reference : TypeRef} (h : r.follow reference = some base) :
    r.compilation.get? base.id = some base := by
  obtain ⟨target, -, found⟩ := Option.bind_eq_some_iff.1 h
  rwa [Compilation.id_of_get? found]

theorem get?_of_directBase (h : r.directBase id = some base) :
    r.compilation.get? base.id = some base := by
  obtain ⟨reference, -, followed⟩ := Option.bind_eq_some_iff.1 h
  exact get?_of_follow followed

theorem baseOf_of_directBase (h : r.directBase id = some base) :
    r.baseOf base.id = base.base := by
  simp [baseOf, get?_of_directBase h]

theorem id_lt_of_get? {c : Compilation} {t : TypeSymbol} (h : c.get? id = some t) :
    id < c.types.length :=
  (List.getElem?_eq_some_iff.1 h).1

@[simp] theorem basePath_nil : r.BasePath id [] := .nil id

theorem basePath_cons :
    r.BasePath id (base :: path) ↔ r.directBase id = some base ∧ r.BasePath base.id path := by
  constructor
  · rintro (_ | ⟨link, linked⟩)
    exact ⟨link, linked⟩
  · rintro ⟨link, linked⟩
    exact .cons link linked

/-- Numbers of types without repetition are no more than there are types. -/
theorem length_le_of_nodup {ids : List TypeId} {n : Nat} (distinct : ids.Nodup)
    (bounded : ∀ id ∈ ids, id < n) : ids.length ≤ n := by
  have inRange : ids.Subperm (List.range n) :=
    List.subperm_of_subset distinct fun id member => List.mem_range.2 (bounded id member)
  simpa using inRange.length_le

theorem ancestryFrom_of_unresolved {limit : Nat} {seen : List TypeId}
    (unresolved : r.directBase id = none) : r.ancestryFrom limit seen (r.baseOf id) = [] := by
  unfold directBase at unresolved
  cases written : r.baseOf id with
  | none => cases limit <;> rfl
  | some reference =>
    rw [written, Option.bind_some] at unresolved
    cases limit <;> simp [ancestryFrom, unresolved]

theorem ancestryFrom_of_directBase {limit : Nat} {seen : List TypeId}
    (link : r.directBase id = some base) :
    r.ancestryFrom (limit + 1) seen (r.baseOf id) =
      if base.name = (r.markers.marker .root).name || seen.contains base.id then []
      else base :: r.ancestryFrom limit (base.id :: seen) (r.baseOf base.id) := by
  obtain ⟨reference, written, followed⟩ := Option.bind_eq_some_iff.1 link
  rw [baseOf_of_directBase link]
  simp [ancestryFrom, written, followed]

/-- Where a walk goes on to a type that it has not seen, there are more types than it has seen. -/
theorem length_lt_of_fresh {seen : List TypeId} (link : r.directBase id = some base)
    (bounded : ∀ id ∈ seen, id < r.compilation.types.length)
    (fresh : (seen ++ (base :: path).map (·.id)).Nodup) :
    seen.length < r.compilation.types.length := by
  have base_lt := id_lt_of_get? (get?_of_directBase link)
  have all : ∀ id ∈ seen ++ [base.id], id < r.compilation.types.length := by
    simpa [or_imp, forall_and] using ⟨bounded, base_lt⟩
  have distinct : (seen ++ [base.id]).Nodup :=
    fresh.sublist (List.Sublist.append_left (by simp) seen)
  have counted := length_le_of_nodup distinct all
  rwa [List.length_append] at counted

/-- What the walk finds behind `seen`, as long as its limit covers the types not seen. -/
theorem prefix_ancestryFrom_iff {limit : Nat} (id : TypeId) (seen : List TypeId)
    (bounded : ∀ id ∈ seen, id < r.compilation.types.length)
    (enough : r.compilation.types.length ≤ limit + seen.length) (distinct : seen.Nodup) :
    path <+: r.ancestryFrom limit seen (r.baseOf id) ↔
      r.BasePath id path ∧ (∀ base ∈ path, base.name ≠ (r.markers.marker .root).name) ∧
        (seen ++ path.map (·.id)).Nodup := by
  induction limit generalizing seen id path with
  | zero =>
    rw [ancestryFrom.eq_2 r _ _ _ (by simp), List.prefix_nil]
    constructor
    · rintro rfl
      simpa using distinct
    · rintro ⟨linked, -, fresh⟩
      cases linked with
      | nil => rfl
      | cons link linked =>
        have short := length_lt_of_fresh link bounded fresh
        omega
  | succ limit ih =>
    cases path with
    | nil => simpa using distinct
    | cons base path =>
      rw [basePath_cons]
      cases link : r.directBase id with
      | none => simp [ancestryFrom_of_unresolved link]
      | some found =>
        rw [ancestryFrom_of_directBase link]
        by_cases stops : found.name = (r.markers.marker .root).name ∨ found.id ∈ seen
        · rw [if_pos (by simpa using stops)]
          simp only [List.prefix_nil, reduceCtorEq, Option.some.injEq, false_iff, not_and]
          rintro ⟨rfl, -⟩ below fresh
          rcases stops with named | member
          · exact below found (by simp) named
          · exact (List.nodup_append.1 fresh).2.2 found.id member found.id (by simp) rfl
        · rw [if_neg (by simpa using stops)]
          simp only [not_or] at stops
          have found_lt := id_lt_of_get? (get?_of_directBase link)
          have behind := @ih path found.id (found.id :: seen)
            (by simpa [or_imp, forall_and] using ⟨found_lt, bounded⟩)
            (by simp at enough ⊢; omega) (by simp [stops.2, distinct])
          rw [List.cons_prefix_cons, Option.some.injEq]
          constructor
          · rintro ⟨rfl, beginning⟩
            obtain ⟨linked, below, fresh⟩ := behind.1 beginning
            refine ⟨⟨rfl, linked⟩, ?_, ?_⟩
            · simpa [stops.1] using below
            · simpa using List.perm_middle.nodup_iff.2 fresh
          · rintro ⟨⟨rfl, linked⟩, below, fresh⟩
            refine ⟨rfl, behind.2 ⟨linked, ?_, ?_⟩⟩
            · exact fun base member => below base (List.mem_cons_of_mem _ member)
            · simpa using List.perm_middle.nodup_iff.1 fresh

/-- The ancestry of a type is its longest chain of base types. -/
theorem isChain_iff_prefix_ancestry : r.IsChain id path ↔ path <+: r.ancestry id := by
  by_cases present : id < r.compilation.types.length
  · rw [ancestry, prefix_ancestryFrom_iff id [id] (by simpa using present)
      (Nat.le_add_right _ 1) (by simp)]
    exact ⟨fun h => ⟨h.linked, h.belowRoot, h.distinct⟩, fun h => ⟨h.1, h.2.1, h.2.2⟩⟩
  · have absent : r.baseOf id = none := by
      simp [baseOf, Compilation.get?, List.getElem?_eq_none (Nat.le_of_not_lt present)]
    have alone : r.ancestry id = [] := by
      rw [ancestry, absent]
      cases r.compilation.types.length <;> rfl
    rw [alone, List.prefix_nil]
    constructor
    · intro h
      cases h.linked with
      | nil => rfl
      | cons link _ => simp [directBase, absent] at link
    · rintro rfl
      exact ⟨.nil id, by simp, by simp⟩

end ConventionLint.Resolver
