import ConventionLint.Analysis
import ConventionLint.Proofs.Taxonomy.IndexQuery
import Mathlib.Data.List.Nodup

/-!
# Visits

Every declared type, property and field is visited once. What a pass reports is what its visits
yield, in the order of the visits, and then sorted.
-/
namespace ConventionLint

namespace Compilation

variable {c : Compilation}

theorem ids_eq_range (c : Compilation) : c.types.map (·.id) = List.range c.types.length := by
  apply List.ext_getElem (by simp)
  intro i bound _
  simpa using c.numbered i (by simpa using bound)

theorem declaredTypes_nodup (c : Compilation) : (c.declaredTypes.map (·.id)).Nodup := by
  have ids : (c.types.map (·.id)).Nodup := ids_eq_range c ▸ List.nodup_range
  exact ids.sublist (List.filter_sublist.map _)

theorem mem_membersOfKind {t : TypeSymbol} {kind : VisitKind} {symbol : SymbolRef} :
    symbol ∈ membersOfKind t kind ↔
      ∃ index m, t.members[index]? = some m ∧ m.visitKind = some kind ∧
        symbol = .member t.id index := by
  simp only [membersOfKind, List.mem_map, List.mem_filter, decide_eq_true_eq, Prod.exists,
    List.mem_zipIdx_iff_getElem?]
  constructor
  · rintro ⟨m, index, ⟨found, visited⟩, rfl⟩
    exact ⟨index, m, found, visited, rfl⟩
  · rintro ⟨index, m, found, visited, rfl⟩
    exact ⟨m, index, ⟨found, visited⟩, rfl⟩

theorem membersOfKind_nodup (t : TypeSymbol) (kind : VisitKind) :
    (membersOfKind t kind).Nodup := by
  have places : (t.members.zipIdx.map (·.2)).Nodup := by
    simp [List.nodup_range']
  have kept : ((t.members.zipIdx.filter fun m => m.1.visitKind = some kind).map
      (·.2)).Nodup := places.sublist (List.filter_sublist.map _)
  have indices : membersOfKind t kind = ((t.members.zipIdx.filter fun m =>
      m.1.visitKind = some kind).map (·.2)).map (.member t.id) := by
    rw [List.map_map]
    rfl
  rw [indices]
  exact kept.map fun _ _ same => (SymbolRef.member.inj same).2

theorem mem_declaredSymbols_type {symbol : SymbolRef} :
    symbol ∈ c.declaredSymbols .type ↔ ∃ t ∈ c.declaredTypes, symbol = .type t.id := by
  simp [declaredSymbols, eq_comm]

theorem mem_declaredSymbols_member {kind : VisitKind} (inner : kind ≠ .type) {symbol : SymbolRef} :
    symbol ∈ c.declaredSymbols kind ↔
      ∃ owner ∈ c.declaredTypes, ∃ index m, owner.members[index]? = some m ∧
        m.visitKind = some kind ∧ symbol = .member owner.id index := by
  cases kind with
  | type => exact absurd rfl inner
  | property => simp [declaredSymbols, mem_membersOfKind]
  | field => simp [declaredSymbols, mem_membersOfKind]

theorem member?_of_mem {owner : TypeSymbol} (declared : owner ∈ c.declaredTypes) (index : Nat) :
    c.member? owner.id index = owner.members[index]? := by
  simp [member?, get?_of_mem_declaredTypes declared]

/-- Symbols are visited as what they are. -/
theorem visitKind_of_mem {kind : VisitKind} {symbol : SymbolRef}
    (h : symbol ∈ c.declaredSymbols kind) : c.visitKind symbol = some kind := by
  by_cases outer : kind = .type
  · subst kind
    obtain ⟨t, declared, rfl⟩ := mem_declaredSymbols_type.1 h
    simp [visitKind, get?_of_mem_declaredTypes declared]
  · obtain ⟨owner, declared, index, m, found, visited, rfl⟩ :=
      (mem_declaredSymbols_member outer).1 h
    simp [visitKind, member?_of_mem declared, found, visited]

theorem declaredSymbols_nodup (c : Compilation) (kind : VisitKind) :
    (c.declaredSymbols kind).Nodup := by
  by_cases outer : kind = .type
  · subst kind
    have ids : c.declaredSymbols .type = (c.declaredTypes.map (·.id)).map .type := by
      rw [List.map_map]
      rfl
    rw [ids]
    exact (declaredTypes_nodup c).map fun _ _ same => SymbolRef.type.inj same
  · have unfolded : c.declaredSymbols kind = c.declaredTypes.flatMap (membersOfKind · kind) := by
      cases kind with
      | type => exact absurd rfl outer
      | property => rfl
      | field => rfl
    rw [unfolded, List.nodup_flatMap]
    refine ⟨fun t _ => membersOfKind_nodup t kind, ?_⟩
    have ids := List.pairwise_map.1 (declaredTypes_nodup c)
    refine ids.imp ?_
    intro a b distinct symbol ina inb
    obtain ⟨_, _, _, _, rfl⟩ := mem_membersOfKind.1 ina
    obtain ⟨_, _, _, _, same⟩ := mem_membersOfKind.1 inb
    exact distinct (SymbolRef.member.inj same).1

theorem mem_visitableSymbols {symbol : SymbolRef} :
    symbol ∈ c.visitableSymbols ↔ ∃ kind, symbol ∈ c.declaredSymbols kind := by
  simp only [visitableSymbols, List.mem_append]
  constructor
  · rintro ((h | h) | h)
    · exact ⟨_, h⟩
    · exact ⟨_, h⟩
    · exact ⟨_, h⟩
  · rintro ⟨kind, h⟩
    cases kind with
    | type => exact .inl (.inl h)
    | property => exact .inl (.inr h)
    | field => exact .inr h

theorem visitableSymbols_nodup (c : Compilation) : c.visitableSymbols.Nodup := by
  have apart {a b : VisitKind} (different : a ≠ b) {s t : SymbolRef}
      (hs : s ∈ c.declaredSymbols a) (ht : t ∈ c.declaredSymbols b) : s ≠ t := by
    rintro rfl
    exact different (Option.some.inj ((visitKind_of_mem hs).symm.trans (visitKind_of_mem ht)))
  rw [visitableSymbols, List.nodup_append, List.nodup_append]
  refine ⟨⟨declaredSymbols_nodup c _, declaredSymbols_nodup c _, ?_⟩,
    declaredSymbols_nodup c _, ?_⟩
  · exact fun s hs t ht => apart (by simp) hs ht
  · intro s hs t ht
    rcases List.mem_append.1 hs with hs | hs
    · exact apart (by simp) hs ht
    · exact apart (by simp) hs ht

end Compilation

namespace Evaluation

theorem foldr_append (evaluations : List Evaluation) :
    evaluations.foldr (· ++ ·) empty =
      ⟨evaluations.flatMap (·.diagnostics), evaluations.flatMap (·.faults)⟩ := by
  induction evaluations with
  | nil => rfl
  | cons e evaluations ih =>
    rw [List.foldr_cons, ih]
    rfl

end Evaluation

/-- What a pass finds, before it is sorted. -/
def Compilation.foundIn (c : Compilation) (order : List SymbolRef) (rules : RuleSet)
    (markers : MarkerSet) : Report :=
  { Report.empty with
    diagnostics := order.flatMap fun s => (rules.visit (Context.of c markers) s).diagnostics
    faults := order.flatMap fun s => (rules.visit (Context.of c markers) s).faults
    fileCount := c.files.length
    typeCount := c.declaredTypes.length }

theorem Compilation.analyzeIn_eq (c : Compilation) (order : List SymbolRef) (rules : RuleSet)
    (markers : MarkerSet) :
    c.analyzeIn order rules markers false = .ok (c.foundIn order rules markers).sorted := by
  have visits : order.mapM (rules.visitUnless false (Context.of c markers)) =
      .ok (order.map (rules.visit (Context.of c markers))) := by
    induction order with
    | nil => rfl
    | cons s order ih =>
      rw [List.mapM_cons, ih]
      rfl
  rw [analyzeIn, visits]
  change Except.ok (Report.sorted _) = _
  rw [Evaluation.foldr_append]
  simp [foundIn, List.flatMap_map]

end ConventionLint
