import ConventionLint.Proofs.Report.Order
import ConventionLint.Report.BuildServer
import Mathlib.Data.List.Pairwise

/-!
# What sorting leaves of the order of finding

Of diagnostics only the place, the code and the message are compared, and places only by the
components of their paths. Sorting settles the order of what differs there and keeps what agrees
there in the order in which it was found. Faults are compared in all their parts, so nothing is left
of the order in which they were found.
-/
namespace ConventionLint

section

variable {α β : Type} {le : α → α → Bool} {l l' : List α} {key : α → β}

/-- Whether two elements are at most each other. -/
def tied (le : α → α → Bool) (a b : α) : Bool :=
  le a b && le b a

theorem tied_eq_true_iff {a b : α} : tied le a b = true ↔ le a b = true ∧ le b a = true := by
  rw [tied, Bool.and_eq_true]

variable (trans : ∀ a b c, le a b = true → le b c = true → le a c = true)
  (total : ∀ a b, (le a b || le b a) = true)

include trans total in
/-- Elements that tie stay in the order in which they were. -/
theorem filter_tied_mergeSort (a : α) :
    (l.mergeSort le).filter (tied le a) = l.filter (tied le a) := by
  rw [← mergeSort_filter trans total]
  apply List.mergeSort_of_pairwise
  apply List.pairwise_of_forall_mem_list
  intro b first c second
  have below := (tied_eq_true_iff.1 (List.mem_filter.1 first).2).2
  have above := (tied_eq_true_iff.1 (List.mem_filter.1 second).2).1
  exact trans b a c below above

include total in
/-- Lists in order are the same when those elements of them are that tie. -/
theorem eq_of_filter_tied (sorted : l.Pairwise fun a b => le a b = true)
    (sorted' : l'.Pairwise fun a b => le a b = true)
    (same : ∀ a, l.filter (tied le a) = l'.filter (tied le a)) : l = l' := by
  have self (a : α) : le a a = true := by simpa using total a a
  have reflexive : Std.Refl fun a b => le a b = true := ⟨self⟩
  have found {l l' : List α} (same : ∀ a, l.filter (tied le a) = l'.filter (tied le a)) {a : α}
      (member : a ∈ l) : a ∈ l' := by
    have kept : a ∈ l.filter (tied le a) :=
      List.mem_filter.2 ⟨member, tied_eq_true_iff.2 ⟨self a, self a⟩⟩
    rw [same a] at kept
    exact (List.mem_filter.1 kept).1
  induction l generalizing l' with
  | nil =>
    cases l' with
    | nil => rfl
    | cons b l' => cases found (fun a => (same a).symm) (List.mem_cons_self (a := b))
  | cons a l ih =>
    cases l' with
    | nil => cases found same (List.mem_cons_self (a := a))
    | cons b l' =>
      -- each list starts with what is at most all of the other, so the two tie, and are the same
      have below : le a b = true := sorted.rel_head (found (fun a => (same a).symm) (.head _))
      have above : le b a = true := sorted'.rel_head (found same (.head _))
      have heads := same a
      rw [List.filter_cons_of_pos (tied_eq_true_iff.2 ⟨self a, self a⟩),
        List.filter_cons_of_pos (tied_eq_true_iff.2 ⟨below, above⟩)] at heads
      obtain rfl : a = b := (List.cons.inj heads).1
      have tails (c : α) : l.filter (tied le c) = l'.filter (tied le c) := by
        have whole := same c
        by_cases ties : tied le c a = true
        · rw [List.filter_cons_of_pos ties, List.filter_cons_of_pos ties] at whole
          exact (List.cons.inj whole).2
        · rwa [List.filter_cons_of_neg ties, List.filter_cons_of_neg ties] at whole
      rw [ih sorted.of_cons sorted'.of_cons tails]

include trans total in
theorem mergeSort_eq_iff_filter_tied : l.mergeSort le = l'.mergeSort le ↔
    ∀ a, l.filter (tied le a) = l'.filter (tied le a) := by
  constructor
  · intro same a
    rw [← filter_tied_mergeSort trans total, same, filter_tied_mergeSort trans total]
  · intro same
    apply eq_of_filter_tied total (List.pairwise_mergeSort trans total l)
      (List.pairwise_mergeSort trans total l')
    intro a
    rw [filter_tied_mergeSort trans total, filter_tied_mergeSort trans total, same]

include trans total in
/-- What is compared is sorted alike, in whatever order it was. -/
theorem map_mergeSort_eq_of_perm (keyed : ∀ a b, tied le a b = true ↔ key a = key b)
    (perm : l.Perm l') : (l.mergeSort le).map key = (l'.mergeSort le).map key := by
  have sorted (l : List α) : ((l.mergeSort le).map key).Pairwise fun k k' =>
      ∀ a b, key a = k → key b = k' → le a b = true := by
    rw [List.pairwise_map]
    refine (List.pairwise_mergeSort trans total l).imp fun {a b} ordered c d first second => ?_
    have before := (tied_eq_true_iff.1 ((keyed c a).2 first)).1
    have behind := (tied_eq_true_iff.1 ((keyed d b).2 second)).2
    exact trans c a d before (trans a b d ordered behind)
  have same := ((List.mergeSort_perm l le).trans perm).trans (List.mergeSort_perm l' le).symm
  refine List.Perm.eq_of_pairwise (fun k k' first second forth back => ?_) (sorted l) (sorted l')
    (same.map key)
  obtain ⟨a, -, rfl⟩ := List.mem_map.1 first
  obtain ⟨b, -, rfl⟩ := List.mem_map.1 second
  exact (keyed a b).1 (tied_eq_true_iff.2 ⟨forth a b rfl rfl, back b a rfl rfl⟩)

end

instance : Std.LawfulEqOrd Path.Component where
  eq_of_compare := by
    intro a b same
    cases a with
    | name a =>
      cases b with
      | name b => exact congrArg _ (Std.LawfulEqOrd.eq_of_compare same)
      | _ => cases same
    | _ => cases b <;> first | rfl | cases same

theorem Path.same_iff {p q : Path} : p.same q = true ↔ p.components = q.components := by
  rw [same, beq_iff_eq]
  change compareComponents p.components q.components = .eq ↔ _
  rw [compareComponents_eq]
  exact Std.LawfulEqCmp.compare_eq_iff_eq

namespace Diagnostic

def sortKey (d : Diagnostic) : List Path.Component × Nat × Nat × String × String :=
  (d.location.file.components, d.location.line, d.location.column, d.code, d.message)

theorem compare_eq_iff {a b : Diagnostic} : a.compare b = .eq ↔ a.sortKey = b.sortKey := by
  rw [Diagnostic.compare, Ordering.then_eq_eq, Ordering.then_eq_eq, Location.compare_eq_iff,
    Path.same_iff, Std.LawfulEqCmp.compare_eq_iff_eq, Std.LawfulEqCmp.compare_eq_iff_eq]
  simp only [sortKey, Prod.mk.injEq, and_assoc]

theorem tied_le_iff (a b : Diagnostic) : tied le a b = true ↔ a.sortKey = b.sortKey := by
  rw [tied_eq_true_iff, ← compare_eq_iff]
  constructor
  · rintro ⟨first, second⟩
    exact compare_eq_of_le first second
  · intro same
    have swapped : b.compare a = .eq := Std.OrientedCmp.eq_symm same
    rw [le, le, same, swapped]
    exact ⟨rfl, rfl⟩

theorem tied_le (a : Diagnostic) : tied le a = fun b => decide (a.sortKey = b.sortKey) := by
  funext b
  rw [Bool.eq_iff_iff, tied_le_iff, decide_eq_true_iff]

end Diagnostic

namespace EvaluationFault

instance : Std.TransCmp EvaluationFault.compare :=
  inferInstanceAs <| Std.TransCmp <|
    compareLex (compareOn EvaluationFault.symbol) (compareLex (compareOn EvaluationFault.code)
      (compareOn EvaluationFault.message))

theorem le_trans (a b c : EvaluationFault) (first : a.le b = true) (second : b.le c = true) :
    a.le c = true :=
  Std.TransCmp.isLE_trans first second

theorem le_total (a b : EvaluationFault) : (a.le b || b.le a) = true := by
  have swapped : b.compare a = (a.compare b).swap := Std.OrientedCmp.eq_swap
  rw [le, le, swapped]
  cases a.compare b <;> rfl

theorem tied_le_iff (a b : EvaluationFault) : tied le a b = true ↔ a = b := by
  rw [tied_eq_true_iff]
  constructor
  · rintro ⟨first, second⟩
    have same : a.compare b = .eq := Std.OrientedCmp.isLE_antisymm first second
    simp only [EvaluationFault.compare, Ordering.then_eq_eq, Std.LawfulEqCmp.compare_eq_iff_eq]
      at same
    cases a
    cases b
    simp_all
  · rintro rfl
    simpa using le_total a a

end EvaluationFault

namespace Report

variable {r r' : Report}

/-- Two reports of the same diagnostics and faults, found in whatever order, list the same faults
once sorted, and diagnostics that agree one by one in all that is compared. They list the same
diagnostics exactly if those that agree in it were found in the same order. So where no two
different ones agree in it, what a sorted report lists depends on its contents alone. -/
theorem sorted_of_perm (diagnostics : r.diagnostics.Perm r'.diagnostics)
    (faults : r.faults.Perm r'.faults) :
    r.sorted.faults = r'.sorted.faults ∧
    r.sorted.diagnostics.map (·.sortKey) = r'.sorted.diagnostics.map (·.sortKey) ∧
    (r.sorted.diagnostics = r'.sorted.diagnostics ↔ ∀ d : Diagnostic,
      r.diagnostics.filter (fun e => decide (d.sortKey = e.sortKey)) =
        r'.diagnostics.filter (fun e => decide (d.sortKey = e.sortKey))) ∧
    ((∀ d ∈ r.diagnostics, ∀ e ∈ r.diagnostics, d.sortKey = e.sortKey → d = e) →
      r'.sorted =
        { r' with diagnostics := r.sorted.diagnostics, faults := r.sorted.faults }) := by
  have trans (a b c : Diagnostic) (first : a.le b = true) (second : b.le c = true) :
      a.le c = true := Diagnostic.le_trans first second
  have found : (r.sorted.faults.map id) = r'.sorted.faults.map id :=
    map_mergeSort_eq_of_perm EvaluationFault.le_trans EvaluationFault.le_total
      EvaluationFault.tied_le_iff faults
  rw [List.map_id, List.map_id] at found
  refine ⟨found, map_mergeSort_eq_of_perm trans Diagnostic.le_total Diagnostic.tied_le_iff
    diagnostics, ?_, fun untied => ?_⟩
  · simp only [← Diagnostic.tied_le]
    exact mergeSort_eq_iff_filter_tied trans Diagnostic.le_total
  · have same : r.sorted.diagnostics = r'.sorted.diagnostics :=
      Diagnostic.mergeSort_eq_of_perm diagnostics fun a first b second ties =>
        untied a first b second (Diagnostic.compare_eq_iff.1 ties)
    rw [same, found]
    rfl

def onLine (line : Nat) (severity : Severity) : Diagnostic :=
  ⟨⟨"SS001", "", "", .naming, severity, ""⟩, "", ⟨⟨"a.cs"⟩, line, 1⟩, "A", []⟩

def ofDiagnostics (diagnostics : List Diagnostic) : Report :=
  { empty with diagnostics }

theorem perm_ofDiagnostics (a b : Diagnostic) :
    (ofDiagnostics [a, b]).diagnostics.Perm (ofDiagnostics [b, a]).diagnostics :=
  List.Perm.swap ..

theorem sorted_ofDiagnostics_onLine (s t : Severity) :
    (ofDiagnostics [onLine 1 s, onLine 1 t]).sorted.diagnostics = [onLine 1 s, onLine 1 t] := by
  apply List.mergeSort_of_pairwise
  cases s <;> cases t <;> decide +kernel

/-- In general neither the diagnostics of a sorted report nor what is shown of them depend on its
contents alone: severities are not compared. -/
theorem sorted_keeps_order :
    ¬(∀ r r' : Report, r.diagnostics.Perm r'.diagnostics → r.faults.Perm r'.faults →
      r.sorted.diagnostics = r'.sorted.diagnostics ∧ r.sorted.faults = r'.sorted.faults) ∧
    ¬(∀ r r' : Report, r.diagnostics.Perm r'.diagnostics → r.faults.Perm r'.faults →
      Workflow.render .standard r.sorted = Workflow.render .standard r'.sorted) := by
  have swapped := perm_ofDiagnostics (onLine 1 .error) (onLine 1 .warning)
  constructor
  · intro claim
    have same := (claim _ _ swapped (.refl _)).1
    rw [sorted_ofDiagnostics_onLine, sorted_ofDiagnostics_onLine] at same
    revert same
    decide +kernel
  · intro claim
    have same := claim _ _ swapped (.refl _)
    rw [Workflow.render, Workflow.render, sorted_ofDiagnostics_onLine,
      sorted_ofDiagnostics_onLine] at same
    revert same
    decide +kernel

theorem sorted_of_perm_onLine :
    (ofDiagnostics [onLine 1 .error, onLine 1 .warning]).sorted.diagnostics ≠
      (ofDiagnostics [onLine 1 .warning, onLine 1 .error]).sorted.diagnostics ∧
    (ofDiagnostics [onLine 1 .warning, onLine 2 .error]).sorted =
      (ofDiagnostics [onLine 2 .error, onLine 1 .warning]).sorted := by
  constructor
  · intro same
    have kept := (sorted_of_perm (perm_ofDiagnostics (onLine 1 .error) (onLine 1 .warning))
      (.refl _)).2.2.1.1 same (onLine 1 .error)
    revert kept
    decide +kernel
  · exact (sorted_of_perm (perm_ofDiagnostics (onLine 2 .error) (onLine 1 .warning))
      (.refl _)).2.2.2 (by decide +kernel)

end Report

end ConventionLint
