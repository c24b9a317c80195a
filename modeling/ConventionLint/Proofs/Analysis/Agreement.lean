import ConventionLint.Proofs.Analysis.Reported
import ConventionLint.Proofs.Report.Order
import ConventionLint.Proofs.Taxonomy.Correspondence

/-!
# Agreeing passes

A violation is all that a convention has to say about a symbol. A type graph that shows the symbols
of another, and perhaps more, and that has some of its violations gets the diagnostics of these in
the same order, as sorting is stable. Two type graphs that show the same symbols with the same
violations get the same report, diagnostic by diagnostic.
-/
namespace ConventionLint

namespace Resolver

variable {r r' : Resolver} {s : SymbolRef} {f f' : Finding} {k : Convention}

theorem Handles.unique {useCase command other : TypeSymbol} (h : r.Handles useCase command)
    (h' : r.Handles useCase other) : command = other :=
  Option.some.inj (h.2.2.1.symm.trans h'.2.2.1)

/-- A symbol breaks a convention in one way only. -/
theorem Violates.finding_unique (h : r.Violates s f k) (h' : r.Violates s f' k) : f = f' := by
  cases k with
  | commandNaming =>
    obtain ⟨t, declared, rfl, -, -, rfl⟩ := h
    exact ((exists_type_iff declared).1 h').2.2.symm
  | eventNaming =>
    obtain ⟨t, declared, rfl, -, -, rfl⟩ := h
    exact ((exists_type_iff declared).1 h').2.2.symm
  | mutableProperty =>
    obtain ⟨owner, declared, index, property, found, rfl, -, -, rfl⟩ := h
    exact ((exists_member_iff declared found).1 h').2.2.symm
  | messageField =>
    obtain ⟨owner, declared, index, field, found, rfl, -, -, rfl⟩ := h
    exact ((exists_member_iff declared found).1 h').2.2.symm
  | missingBusinessRule =>
    obtain ⟨t, declared, rfl, command, handles, -, rfl⟩ := h
    obtain ⟨other, handles', -, rfl⟩ := (exists_type_iff declared).1 h'
    rw [handles.unique handles']
  | missingImplementation =>
    obtain ⟨t, declared, rfl, -, -, rfl⟩ := h
    exact ((exists_type_iff declared).1 h').2.2.symm

/-- What is found is reported where the symbol stands. -/
theorem Violates.location_eq (h : r.Violates s f k) :
    f.location = r.compilation.symbolLocation s := by
  have typed {t : TypeSymbol} (declared : t ∈ r.compilation.declaredTypes) :
      r.compilation.symbolLocation (.type t.id) = t.location := by
    rw [Compilation.symbolLocation, Compilation.get?_of_mem_declaredTypes declared,
      Option.bind_some]
  have owned {owner : TypeSymbol} (declared : owner ∈ r.compilation.declaredTypes) {index : Nat}
      {m : MemberSymbol} (found : owner.members[index]? = some m) :
      r.compilation.symbolLocation (.member owner.id index) = m.location := by
    rw [Compilation.symbolLocation, Compilation.member?_of_mem declared, found, Option.bind_some]
  cases k with
  | commandNaming =>
    obtain ⟨t, declared, rfl, -, -, rfl⟩ := h
    exact (typed declared).symm
  | eventNaming =>
    obtain ⟨t, declared, rfl, -, -, rfl⟩ := h
    exact (typed declared).symm
  | mutableProperty =>
    obtain ⟨owner, declared, index, property, found, rfl, -, -, rfl⟩ := h
    exact (owned declared found).symm
  | messageField =>
    obtain ⟨owner, declared, index, field, found, rfl, -, -, rfl⟩ := h
    exact (owned declared found).symm
  | missingBusinessRule =>
    obtain ⟨t, declared, rfl, command, -, -, rfl⟩ := h
    exact (typed declared).symm
  | missingImplementation =>
    obtain ⟨t, declared, rfl, -, -, rfl⟩ := h
    exact (typed declared).symm

/-- Lists without duplicates and with the same single element, if any, are the same. -/
theorem eq_of_unique {α : Type} {l l' : List α} (distinct : l.Nodup) (distinct' : l'.Nodup)
    (same : ∀ a, a ∈ l ↔ a ∈ l') (unique : ∀ a ∈ l, ∀ b ∈ l, a = b) : l = l' := by
  have perm := (List.perm_ext_iff_of_nodup distinct distinct').2 same
  cases l with
  | nil => exact (List.nil_perm.1 perm).symm
  | cons a rest =>
    have alone : rest = [] := by
      refine List.eq_nil_iff_forall_not_mem.2 fun b later => ?_
      rw [unique b (List.mem_cons_of_mem _ later) a (by simp)] at later
      exact (List.nodup_cons.1 distinct).1 later
    subst alone
    exact (List.perm_singleton.1 perm.symm).symm

variable {p : Violation → Prop} [DecidablePred p]

/-- Where the violations are those of another graph that have a property, the findings are. -/
theorem findings_filter (fewer : ∀ f, r'.Violates s f k ↔ r.Violates s f k ∧ p ⟨k, s, f⟩)
    (visited : s ∈ r.compilation.declaredSymbols k.rule.trigger)
    (visited' : s ∈ r'.compilation.declaredSymbols k.rule.trigger) :
    r'.findings k s = (r.findings k s).filter fun f => p ⟨k, s, f⟩ := by
  obtain ⟨distinct, all⟩ := finds_findings visited
  obtain ⟨distinct', all'⟩ := finds_findings visited'
  refine eq_of_unique distinct' (distinct.filter _) (fun f => ?_) fun f found f' found' => ?_
  · rw [List.mem_filter, all, all', fewer, decide_eq_true_eq]
  · exact ((all' f).1 found).finding_unique ((all' f').1 found')

theorem violationsOf_filter (fewer : ∀ f k, r'.Violates s f k ↔ r.Violates s f k ∧ p ⟨k, s, f⟩)
    (shown : ∀ kind, s ∈ r.compilation.declaredSymbols kind →
      s ∈ r'.compilation.declaredSymbols kind)
    (visitable : s ∈ r.compilation.visitableSymbols) :
    r'.violationsOf s = (r.violationsOf s).filter p := by
  obtain ⟨kind, declared⟩ := Compilation.mem_visitableSymbols.1 visitable
  have kinds : r'.compilation.visitKind s = r.compilation.visitKind s :=
    (Compilation.visitKind_of_mem (shown kind declared)).trans
      (Compilation.visitKind_of_mem declared).symm
  rw [violationsOf, violationsOf, kinds, List.filter_flatMap]
  refine List.flatMap_congr fun k member => ?_
  have visited := (mem_declaredSymbols_iff visitable).2
    (of_decide_eq_true (List.mem_filter.1 member).2)
  rw [findings_filter (fewer · k) visited (shown _ visited), List.filter_map]
  rfl

/-- Symbols that come behind those of a kind break nothing if what breaks a convention is visited
already. -/
theorem flatMap_violationsOf_append (fewer : ∀ s f k, r'.Violates s f k → r.Violates s f k)
    {kind : VisitKind} {added : List SymbolRef}
    (behind : r'.compilation.declaredSymbols kind = r.compilation.declaredSymbols kind ++ added)
    (shown : ∀ kind s, s ∈ r.compilation.declaredSymbols kind →
      s ∈ r'.compilation.declaredSymbols kind) :
    (r'.compilation.declaredSymbols kind).flatMap r'.violationsOf
      = (r.compilation.declaredSymbols kind).flatMap r'.violationsOf := by
  have distinct := Compilation.declaredSymbols_nodup r'.compilation kind
  rw [behind] at distinct ⊢
  have silent (s : SymbolRef) (new : s ∈ added) : r'.violationsOf s = [] := by
    have visited : s ∈ r'.compilation.declaredSymbols kind :=
      behind ▸ List.mem_append_right _ new
    refine List.eq_nil_iff_forall_not_mem.2 fun v member => ?_
    obtain ⟨rfl, broken⟩ :=
      (mem_violationsOf (Compilation.mem_visitableSymbols.2 ⟨kind, visited⟩)).1 member
    have old := (fewer _ _ _ broken).visited
    have kinds := (Compilation.visitKind_of_mem visited).symm.trans
      (Compilation.visitKind_of_mem (shown _ _ old))
    rw [← Option.some.inj kinds] at old
    exact (List.nodup_append.1 distinct).2.2 _ old _ new rfl
  rw [List.flatMap_append, List.flatMap_eq_nil_iff.2 silent, List.append_nil]

/-- Of a graph that shows more symbols and has fewer violations, a pass comes upon those that are
left in the same order. -/
theorem violationsIn_filter
    (fewer : ∀ v, r'.Violates v.symbol v.finding v.convention ↔
      r.Violates v.symbol v.finding v.convention ∧ p v)
    (shown : ∀ kind, ∃ added,
      r'.compilation.declaredSymbols kind = r.compilation.declaredSymbols kind ++ added) :
    r'.violationsIn r'.compilation.visitableSymbols
      = (r.violationsIn r.compilation.visitableSymbols).filter p := by
  have kept (kind : VisitKind) (s : SymbolRef) (member : s ∈ r.compilation.declaredSymbols kind) :
      s ∈ r'.compilation.declaredSymbols kind := by
    obtain ⟨added, behind⟩ := shown kind
    exact behind ▸ List.mem_append_left _ member
  have left (kind : VisitKind) : (r'.compilation.declaredSymbols kind).flatMap r'.violationsOf
      = ((r.compilation.declaredSymbols kind).flatMap r.violationsOf).filter p := by
    obtain ⟨added, behind⟩ := shown kind
    have broken (s : SymbolRef) (f : Finding) (k : Convention) (h : r'.Violates s f k) :
        r.Violates s f k := ((fewer ⟨k, s, f⟩).1 h).1
    rw [flatMap_violationsOf_append broken behind kept, List.filter_flatMap]
    refine List.flatMap_congr fun s member => ?_
    exact violationsOf_filter (fun f k => fewer ⟨k, s, f⟩) (kept · s)
      (Compilation.mem_visitableSymbols.2 ⟨kind, member⟩)
  simp only [violationsIn, Compilation.visitableSymbols, List.flatMap_append, List.filter_append,
    left]

end Resolver

namespace Compilation

variable {c c' : Compilation} {markers : MarkerSet}

theorem membersOfKind_eq (t : TypeSymbol) (kind : VisitKind) : membersOfKind t kind =
    ((t.members.map (·.visitKind)).zipIdx.filter fun m => m.1 = some kind).map
      fun m => .member t.id m.2 := by
  rw [membersOfKind, List.zipIdx_map, List.filter_map, List.map_map]
  rfl

/-- Types that go under the same numbers and have members of the same kinds show the same
symbols. -/
theorem declaredSymbols_congr
    (same : c.declaredTypes.map (fun t => (t.id, t.members.map (·.visitKind)))
      = c'.declaredTypes.map fun t => (t.id, t.members.map (·.visitKind))) (kind : VisitKind) :
    c.declaredSymbols kind = c'.declaredSymbols kind := by
  have types (c : Compilation) : c.declaredSymbols .type
      = (c.declaredTypes.map fun t => (t.id, t.members.map (·.visitKind))).map
          fun t => .type t.1 := by
    rw [List.map_map]
    rfl
  have members (c : Compilation) : c.declaredTypes.flatMap (membersOfKind · kind)
      = (c.declaredTypes.map fun t => (t.id, t.members.map (·.visitKind))).flatMap fun t =>
          (t.2.zipIdx.filter fun m => m.1 = some kind).map fun m => .member t.1 m.2 := by
    rw [List.flatMap_map]
    exact List.flatMap_congr fun t _ => membersOfKind_eq t kind
  cases kind with
  | type => rw [types, types, same]
  | property | field => exact (members c).trans (same ▸ (members c').symm)

/-- The violations that are reported with their diagnostics, in the order of the report. -/
def reported (c : Compilation) (markers : MarkerSet) (severity : Convention → Option Severity) :
    List (Violation × Diagnostic) :=
  ((Resolver.violationsIn ⟨c, markers⟩ c.visitableSymbols).filterMap fun v =>
    (v.diagnostic? severity).map (v, ·)).mergeSort fun a b => a.2.le b.2

variable {severity : Convention → Option Severity}

theorem mem_reported {v : Violation} {d : Diagnostic} : (v, d) ∈ c.reported markers severity ↔
    Resolver.Violates ⟨c, markers⟩ v.symbol v.finding v.convention ∧
      v.diagnostic? severity = some d := by
  have found (v : Violation) := Resolver.mem_violationsIn (r := ⟨c, markers⟩) (v := v) (.refl _)
  simp only [reported, List.mem_mergeSort, List.mem_filterMap, Option.map_eq_some_iff,
    Prod.mk.injEq, found]
  constructor
  · rintro ⟨_, broken, _, raised, rfl, rfl⟩
    exact ⟨broken, raised⟩
  · rintro ⟨broken, raised⟩
    exact ⟨v, broken, d, raised, rfl, rfl⟩

/-- No violation is reported twice. -/
theorem reported_nodup : ((c.reported markers severity).map (·.1)).Nodup := by
  have perm := (List.mergeSort_perm ((Resolver.violationsIn ⟨c, markers⟩
    c.visitableSymbols).filterMap fun v => (v.diagnostic? severity).map (v, ·))
      fun a b => a.2.le b.2).map (·.1)
  rw [reported, perm.nodup_iff, List.map_filterMap]
  have distinct := Resolver.violationsIn_nodup (r := ⟨c, markers⟩) (.refl _)
  refine distinct.filterMap ?_
  simp only [Option.map_map, Option.mem_def, Option.map_eq_some_iff]
  rintro v w _ ⟨_, -, rfl⟩ ⟨_, -, rfl⟩
  rfl

theorem analyze_eq_reported (c : Compilation) (markers : MarkerSet)
    (severity : Convention → Option Severity) (reports : Bool) :
    c.analyze (.select severity reports) markers false =
      .ok { Report.empty with
        diagnostics := (c.reported markers severity).map (·.2)
        fileCount := c.files.length
        typeCount := c.declaredTypes.length } := by
  have sorted : (c.reported markers severity).map (·.2)
      = ((Resolver.violationsIn ⟨c, markers⟩ c.visitableSymbols).filterMap
        (·.diagnostic? severity)).mergeSort Diagnostic.le := by
    rw [reported, List.map_mergeSort (s := Diagnostic.le) (f := Prod.snd) fun _ _ _ _ => rfl,
      List.map_filterMap]
    congr 2
    funext v
    cases v.diagnostic? severity <;> rfl
  rw [analyze, analyzeIn_eq, foundIn_select severity reports (.refl _), sorted]
  simp [Report.sorted, Report.empty]

theorem reported_filter {p : Violation → Prop} [DecidablePred p]
    (fewer : ∀ v, Resolver.Violates ⟨c', markers⟩ v.symbol v.finding v.convention ↔
      Resolver.Violates ⟨c, markers⟩ v.symbol v.finding v.convention ∧ p v)
    (shown : ∀ kind, ∃ added, c'.declaredSymbols kind = c.declaredSymbols kind ++ added) :
    c'.reported markers severity = (c.reported markers severity).filter fun e => p e.1 := by
  have left : Resolver.violationsIn ⟨c', markers⟩ c'.visitableSymbols
      = (Resolver.violationsIn ⟨c, markers⟩ c.visitableSymbols).filter p :=
    Resolver.violationsIn_filter fewer shown
  have trans (a b e : Violation × Diagnostic) (first : a.2.le b.2 = true)
      (second : b.2.le e.2 = true) : a.2.le e.2 = true := Diagnostic.le_trans first second
  rw [reported, reported, left, ← mergeSort_filter trans fun a b => Diagnostic.le_total a.2 b.2]
  congr 1
  rw [List.filterMap_filter, List.filter_filterMap]
  refine List.filterMap_congr fun v _ => ?_
  cases v.diagnostic? severity with
  | none => simp
  | some d => by_cases kept : p v <;> simp [Option.filter, kept]

/-- Graphs that show the same symbols with the same violations get the same report. -/
theorem analyze_congr (severity : Convention → Option Severity) (reports : Bool)
    (files : c.files.length = c'.files.length)
    (types : c.declaredTypes.map (fun t => (t.id, t.members))
      = c'.declaredTypes.map fun t => (t.id, t.members))
    (same : ∀ s f k, Resolver.Violates ⟨c, markers⟩ s f k ↔ Resolver.Violates ⟨c', markers⟩ s f k) :
    c.analyze (.select severity reports) markers false
      = c'.analyze (.select severity reports) markers false := by
  have counts : c.declaredTypes.length = c'.declaredTypes.length := by
    simpa using congrArg List.length types
  have kinds := congrArg (List.map fun t => (t.1, t.2.map (·.visitKind))) types
  rw [List.map_map, List.map_map] at kinds
  have all : c'.reported markers severity = c.reported markers severity := by
    have left : c'.reported markers severity
        = (c.reported markers severity).filter fun _ => True :=
      reported_filter (p := fun _ => True) (fun v => by rw [same, and_true]) fun kind =>
        ⟨[], by rw [List.append_nil, declaredSymbols_congr kinds]⟩
    simpa using left
  rw [analyze_eq_reported, analyze_eq_reported, all, files, counts]

end Compilation

end ConventionLint
