import ConventionLint.Proofs.Analysis.Agreement
import ConventionLint.Proofs.Binding.Locations
import ConventionLint.Proofs.Source.FileRoundTrip

/-!
# Order independence

A report does not tell in which order its files were added, their declarations stood or the symbols
were visited. The type graphs of rearranged files correspond, and so they have violations of which
the same is to be said. Scanned symbols stand at different places: no two diagnostics tie when they
are sorted.
-/
namespace ConventionLint

/-- Every convention has a code of its own. -/
theorem Convention.eq_of_code {k k' : Convention}
    (same : k.rule.descriptor.code = k'.rule.descriptor.code) : k = k' := by
  cases k <;> cases k' <;> first | rfl | exact absurd same (by decide)

/-- A reported violation is reported where it was found, under the code of its convention. -/
theorem Violation.location_code {severity : Convention → Option Severity} {v : Violation}
    {d : Diagnostic} (raised : v.diagnostic? severity = some d) :
    v.finding.location = some d.location ∧ d.code = v.convention.rule.descriptor.code := by
  rw [diagnostic?, Option.bind_eq_some_iff] at raised
  obtain ⟨level, -, raised⟩ := raised
  rw [Finding.diagnostic?, Option.map_eq_some_iff] at raised
  obtain ⟨location, valid, rfl⟩ := raised
  exact ⟨(Option.filter_eq_some_iff.1 valid).1, rfl⟩

namespace Compilation

variable {c c' : Compilation} {markers : MarkerSet} {severity : Convention → Option Severity}
  {order order' : List SymbolRef}

def raisedIn (c : Compilation) (markers : MarkerSet) (severity : Convention → Option Severity)
    (order : List SymbolRef) : List Diagnostic :=
  (Resolver.violationsIn ⟨c, markers⟩ order).filterMap (·.diagnostic? severity)

/-- What is raised is what some violation has to say. -/
theorem mem_raisedIn (all : order.Perm c.visitableSymbols) {d : Diagnostic} :
    d ∈ c.raisedIn markers severity order ↔
      ∃ v : Violation, Resolver.Violates ⟨c, markers⟩ v.symbol v.finding v.convention ∧
        v.diagnostic? severity = some d := by
  rw [raisedIn, List.mem_filterMap]
  exact exists_congr fun v => and_congr_left fun _ => Resolver.mem_violationsIn all

/-- At one place stands one symbol. -/
theorem PlacedApart.symbol_eq (apart : c.PlacedApart) {s s' : SymbolRef} {f f' : Finding}
    {k k' : Convention} (first : Resolver.Violates ⟨c, markers⟩ s f k)
    (second : Resolver.Violates ⟨c, markers⟩ s' f' k') {l l' : Location}
    (here : f.location = some l) (there : f'.location = some l') (same : compare l l' = .eq) :
    s = s' := by
  have visitable := mem_visitableSymbols.2 ⟨_, first.visited⟩
  have visitable' := mem_visitableSymbols.2 ⟨_, second.visited⟩
  have placed := first.location_eq.symm.trans here
  have placed' := second.location_eq.symm.trans there
  exact apart s visitable s' visitable' l l' placed placed' same

/-- Violations whose diagnostics tie are the same violation. -/
theorem PlacedApart.violation_eq (apart : c.PlacedApart) {v w : Violation} {a b : Diagnostic}
    (first : Resolver.Violates ⟨c, markers⟩ v.symbol v.finding v.convention)
    (second : Resolver.Violates ⟨c, markers⟩ w.symbol w.finding w.convention)
    (raised : v.diagnostic? severity = some a) (raised' : w.diagnostic? severity = some b)
    (same : a.compare b = .eq) : v = w := by
  obtain ⟨places, codes⟩ := Diagnostic.location_code_of_compare same
  obtain ⟨here, code⟩ := Violation.location_code raised
  obtain ⟨there, code'⟩ := Violation.location_code raised'
  have symbols := apart.symbol_eq first second here there places
  have conventions := Convention.eq_of_code (code.symm.trans (codes.trans code'))
  cases v
  cases w
  dsimp only at symbols conventions first second
  subst symbols conventions
  rw [first.finding_unique second]

theorem PlacedApart.raisedIn_ties (apart : c.PlacedApart) (all : order.Perm c.visitableSymbols)
    {a b : Diagnostic} (first : a ∈ c.raisedIn markers severity order)
    (second : b ∈ c.raisedIn markers severity order) (same : a.compare b = .eq) : a = b := by
  obtain ⟨v, broken, raised⟩ := (mem_raisedIn all).1 first
  obtain ⟨w, broken', raised'⟩ := (mem_raisedIn all).1 second
  have violations := apart.violation_eq broken broken' raised raised' same
  subst violations
  exact Option.some.inj (raised.symm.trans raised')

/-- No diagnostic is raised twice. -/
theorem PlacedApart.raisedIn_nodup (apart : c.PlacedApart) (all : order.Perm c.visitableSymbols) :
    (c.raisedIn markers severity order).Nodup := by
  rw [raisedIn, List.Nodup, List.pairwise_filterMap]
  have distinct := Resolver.violationsIn_nodup (r := ⟨c, markers⟩) all
  refine (List.Pairwise.and_mem.1 distinct).imp ?_
  rintro v w ⟨member, member', different⟩ a raised b raised' rfl
  have broken := (Resolver.mem_violationsIn all).1 member
  have broken' := (Resolver.mem_violationsIn all).1 member'
  exact different (apart.violation_eq broken broken' raised raised' Std.ReflCmp.compare_self)

variable {R : TypeSymbol → TypeSymbol → Prop}

theorem mem_raisedIn_of_corresponds (h : Resolver.Corresponds ⟨c, markers⟩ ⟨c', markers⟩ R)
    (all : order.Perm c.visitableSymbols) (all' : order'.Perm c'.visitableSymbols) {d : Diagnostic}
    (found : d ∈ c.raisedIn markers severity order) : d ∈ c'.raisedIn markers severity order' := by
  obtain ⟨v, broken, raised⟩ := (mem_raisedIn all).1 found
  obtain ⟨s, -, broken'⟩ := h.violates broken
  exact (mem_raisedIn all').2 ⟨{ v with symbol := s }, broken', raised⟩

/-- Corresponding type graphs whose symbols stand apart raise the same diagnostics. -/
theorem raisedIn_perm (h : Resolver.Corresponds ⟨c, markers⟩ ⟨c', markers⟩ R)
    (apart : c.PlacedApart) (apart' : c'.PlacedApart) (all : order.Perm c.visitableSymbols)
    (all' : order'.Perm c'.visitableSymbols) :
    (c.raisedIn markers severity order).Perm (c'.raisedIn markers severity order') := by
  refine (List.perm_ext_iff_of_nodup (apart.raisedIn_nodup all) (apart'.raisedIn_nodup all')).2 ?_
  intro d
  constructor
  · exact mem_raisedIn_of_corresponds h all all'
  · exact mem_raisedIn_of_corresponds h.symm all' all

theorem analyzeIn_eq_of_corresponds (h : Resolver.Corresponds ⟨c, markers⟩ ⟨c', markers⟩ R)
    (apart : c.PlacedApart) (apart' : c'.PlacedApart) (all : order.Perm c.visitableSymbols)
    (all' : order'.Perm c'.visitableSymbols) (files : c.files.length = c'.files.length)
    (types : c.declaredTypes.length = c'.declaredTypes.length)
    (severity : Convention → Option Severity) (reports : Bool) :
    c.analyzeIn order (.select severity reports) markers false
      = c'.analyzeIn order' (.select severity reports) markers false := by
  have sorted : (c.raisedIn markers severity order).mergeSort Diagnostic.le
      = (c'.raisedIn markers severity order').mergeSort Diagnostic.le :=
    Diagnostic.mergeSort_eq_of_perm (raisedIn_perm h apart apart' all all')
      fun a first b second same => apart.raisedIn_ties all first second same
  rw [analyzeIn_eq, analyzeIn_eq, foundIn_select severity reports all,
    foundIn_select severity reports all', files, types]
  rw [raisedIn, raisedIn] at sorted
  rw [Report.sorted, Report.sorted]
  dsimp only
  rw [sorted]

/-- The report of scanned files that declare no key twice is the same for every order of the files,
of the top-level declarations of each and of the visits. -/
theorem analyze_order_independent (root : String) (markers : MarkerSet)
    (severity : Convention → Option Severity) (reports : Bool) {files files' : List SourceFile}
    (scanned : ∀ f ∈ files, ∃ source, SourceFile.scan f.path source = .ok f)
    (paths : files.Pairwise fun f g => f.path.same g.path = false)
    (distinct : ((Binding.sites files).map (·.key)).Nodup)
    (rearranged : SourceFile.Rearranged files files')
    (all : order.Perm (build root files).visitableSymbols)
    (all' : order'.Perm (build root files').visitableSymbols) :
    ∃ report,
      (build root files).analyzeIn order (.select severity reports) markers false = .ok report ∧
      (build root files').analyzeIn order' (.select severity reports) markers false
        = .ok report := by
  have sites := Binding.sameSites_of_rearranged rearranged distinct
  have places (f : SourceFile) (member : f ∈ files) : f.places.Nodup := by
    obtain ⟨source, read⟩ := scanned f member
    exact SourceFile.places_nodup read
  have spread := Binding.apart_of_places places paths
  have apart := sites.placedApart spread root
  have apart' := sites.symm.placedApart (sites.apart spread) root
  have counts : (build root files).files.length = (build root files').files.length := by
    have paths (files : List SourceFile) : (build root files).files.length = files.length :=
      List.length_map _
    rw [paths, paths, rearranged.length_eq]
  have same := analyzeIn_eq_of_corresponds (sites.corresponds root markers) apart apart' all all'
    counts (sites.typeCount_eq root) severity reports
  exact ⟨_, same.trans (analyzeIn_eq _ _ _ _), analyzeIn_eq _ _ _ _⟩

/-- Two events in one namespace, of which one has a public setter. -/
def events : SourceFile where
  path := ⟨"Events.cs"⟩
  imports := ["Slalom.Stacks.Messaging"]
  aliases := []
  types :=
    [⟨"OrderPlaced", .plainClass, some "Shop.Orders", [], [.simple "Event"], [], [], .start, false⟩,
     ⟨"OrderShipped", .record, some "Shop.Orders", [], [.simple "OrderPlaced"],
      [⟨"Carrier", .property (some ⟨.publicAccess, false⟩) true, .publicAccess, .start⟩], [],
      .start, false⟩]

/-- The files swapped, the declarations of one in reverse, and the visits in reverse. -/
theorem analyze_order_independent_reversed :
    ∃ read shipped report,
      SourceFile.scan SourceFile.orders.path (SourceFile.orders.written .plain) = .ok read ∧
      SourceFile.scan events.path (events.written .plain) = .ok shipped ∧
      (build "System.Object" [read, shipped]).analyzeIn
          (build "System.Object" [read, shipped]).visitableSymbols
          (.select (fun _ => some .error) false)
          ⟨fun _ => .ofIdentity "Slalom.Stacks.Messaging.Event", false⟩ false = .ok report ∧
      (build "System.Object"
          [{ shipped with types := shipped.types.reverse }, read]).analyzeIn
          (build "System.Object"
            [{ shipped with types := shipped.types.reverse }, read]).visitableSymbols.reverse
          (.select (fun _ => some .error) false)
          ⟨fun _ => .ofIdentity "Slalom.Stacks.Messaging.Event", false⟩ false = .ok report := by
  obtain ⟨read, run, same⟩ := SourceFile.exists_scan .plain
    (show SourceFile.orders.isWritable = true by decide) (by decide)
  obtain ⟨shipped, run', same'⟩ := SourceFile.exists_scan .plain
    (show events.isWritable = true by decide) (by decide)
  have path := SourceFile.path_of_scan run
  have path' := SourceFile.path_of_scan run'
  have scanned : ∀ f ∈ [read, shipped], ∃ source, SourceFile.scan f.path source = .ok f := by
    intro f member
    rcases List.mem_pair.1 member with rfl | rfl
    · exact ⟨_, path ▸ run⟩
    · exact ⟨_, path' ▸ run'⟩
  have paths : [read, shipped].Pairwise fun f g => f.path.same g.path = false := by
    rw [List.pairwise_pair, path, path']
    decide
  have distinct : ((Binding.sites [read, shipped]).map (·.key)).Nodup := by
    rw [← Binding.keys_sites_unplaced, List.map_cons, List.map_singleton, same, same']
    decide
  have rearranged : SourceFile.Rearranged [read, shipped]
      [{ shipped with types := shipped.types.reverse }, read] := by
    refine ⟨[shipped, read], .swap _ _ _, .cons ?_ (.cons ?_ .nil)⟩
    · exact ⟨rfl, rfl, rfl, (List.reverse_perm _).symm⟩
    · exact ⟨rfl, rfl, rfl, .refl _⟩
  obtain ⟨report, first, second⟩ := analyze_order_independent "System.Object"
    ⟨fun _ => .ofIdentity "Slalom.Stacks.Messaging.Event", false⟩ (fun _ => some .error) false
    scanned paths distinct rearranged (.refl _) (List.reverse_perm _)
  exact ⟨read, shipped, report, run, run', first, second⟩

end Compilation

end ConventionLint
