import ConventionLint.Report.Basic

/-!
# The order of reports

Comparing diagnostics part by part makes a total preorder. Sorting leaves nothing to chance as long
as no two different diagnostics of a report agree in location, code and message: the sorted list is
then the same for every order in which they were found.
-/
namespace ConventionLint

namespace Path

namespace Component

def rank : Component → Nat
  | .root => 0
  | .current => 1
  | .parent => 2
  | .name _ => 3

def text : Component → String
  | .name text => text
  | .root | .current | .parent => ""

theorem compare_eq_compareLex :
    Component.compare = compareLex (compareOn rank) (compareOn text) := by
  funext a b
  cases a <;> cases b <;> rfl

instance : Std.TransOrd Component := by
  have lex : Std.TransCmp (compareLex (compareOn rank) (compareOn text)) := inferInstance
  rwa [← compare_eq_compareLex] at lex

end Component

theorem compareComponents_eq : compareComponents = List.compareLex compare := by
  funext as bs
  induction as generalizing bs with
  | nil => cases bs <;> rfl
  | cons a as ih =>
    cases bs with
    | nil => rfl
    | cons b bs => rw [compareComponents, ih, List.compareLex_cons_cons]

instance : Std.TransOrd Path := by
  have lex : Std.TransCmp (compareOn components) := inferInstance
  have same : (compareOn components : Path → Path → Ordering) = Path.compare := by
    funext p q
    rw [Path.compare, compareComponents_eq]
    rfl
  rwa [same] at lex

end Path

instance : Std.TransOrd Location :=
  inferInstanceAs <| Std.TransCmp <|
    compareLex (compareOn Location.file) (compareLex (compareOn Location.line)
      (compareOn Location.column))

theorem Location.compare_eq_iff {a b : Location} : compare a b = .eq ↔
    a.file.same b.file = true ∧ a.line = b.line ∧ a.column = b.column := by
  change Location.compare a b = .eq ↔ _
  rw [Location.compare, Ordering.then_eq_eq, Ordering.then_eq_eq, Nat.compare_eq_eq,
    Nat.compare_eq_eq, Path.same, beq_iff_eq]

/-- Lists that are cut where their elements cease to have a property are cut alike. -/
theorem eq_of_append_eq {α : Type} {p : α → Bool} {before before' behind behind' : List α}
    (same : before ++ behind = before' ++ behind') (within : ∀ a ∈ before, p a = true)
    (within' : ∀ a ∈ before', p a = true) (beyond : ∀ a ∈ behind, p a = false)
    (beyond' : ∀ a ∈ behind', p a = false) : before = before' ∧ behind = behind' := by
  have cut {xs ys : List α} (within : ∀ a ∈ xs, p a = true) (beyond : ∀ a ∈ ys, p a = false) :
      (xs ++ ys).filter p = xs := by
    have none : ys.filter p = [] := List.filter_eq_nil_iff.2 fun a member => by
      simp [beyond a member]
    rw [List.filter_append, List.filter_eq_self.2 within, none, List.append_nil]
  have first : before = before' := by
    rw [← cut within beyond, same, cut within' beyond']
  subst first
  exact ⟨rfl, List.append_cancel_left same⟩

/-- Sorting leaves elements in their order where nothing else sets one: what is taken out before is
not missed behind. -/
theorem mergeSort_filter {α : Type} {le : α → α → Bool}
    (trans : ∀ a b c, le a b = true → le b c = true → le a c = true)
    (total : ∀ a b, (le a b || le b a) = true) (p : α → Bool) (l : List α) :
    (l.filter p).mergeSort le = (l.mergeSort le).filter p := by
  induction l with
  | nil => simp
  | cons a l ih =>
    obtain ⟨before, behind, whole, rest, below⟩ := List.mergeSort_cons trans total a l
    by_cases kept : p a = true
    · obtain ⟨before', behind', whole', rest', below'⟩ :=
        List.mergeSort_cons trans total a (l.filter p)
      -- `a` stands before the first element that is not below it, in the one list and the other
      have above {l before behind : List α} (whole : l.mergeSort le = before ++ a :: behind) :
          ∀ b ∈ behind, (!le a b) = false := by
        intro b member
        have sorted := List.pairwise_mergeSort trans total l
        rw [whole, List.pairwise_append, List.pairwise_cons] at sorted
        simp [sorted.2.1.1 b member]
      have same : before' ++ behind' = before.filter p ++ behind.filter p := by
        rw [← rest', ih, rest, List.filter_append]
      obtain ⟨first, second⟩ := eq_of_append_eq same below'
        (fun b member => below b (List.mem_filter.1 member).1) (above whole')
        (fun b member => above whole b (List.mem_filter.1 member).1)
      rw [List.filter_cons_of_pos kept, whole', whole, List.filter_append,
        List.filter_cons_of_pos kept, first, second]
    · rw [List.filter_cons_of_neg kept, ih, rest, whole, List.filter_append, List.filter_append,
        List.filter_cons_of_neg kept]

namespace Diagnostic

instance : Std.TransCmp Diagnostic.compare :=
  inferInstanceAs <| Std.TransCmp <|
    compareLex (compareOn Diagnostic.location) (compareLex (compareOn Diagnostic.code)
      (compareOn Diagnostic.message))

variable {a b c : Diagnostic} {l l' : List Diagnostic}

theorem le_trans (first : a.le b = true) (second : b.le c = true) : a.le c = true :=
  Std.TransCmp.isLE_trans first second

theorem le_total (a b : Diagnostic) : (a.le b || b.le a) = true := by
  have swapped : b.compare a = (a.compare b).swap := Std.OrientedCmp.eq_swap
  rw [le, le, swapped]
  cases a.compare b <;> rfl

theorem compare_eq_of_le (first : a.le b = true) (second : b.le a = true) : a.compare b = .eq :=
  Std.OrientedCmp.isLE_antisymm first second

/-- Diagnostics that agree in all that is compared stand at one place and have one code. -/
theorem location_code_of_compare (same : a.compare b = .eq) :
    compare a.location b.location = .eq ∧ a.code = b.code := by
  rw [Diagnostic.compare, Ordering.then_eq_eq, Ordering.then_eq_eq] at same
  exact ⟨same.1, Std.LawfulEqOrd.eq_of_compare same.2.1⟩

/-- Where nothing ties, diagnostics found in any order are sorted alike. -/
theorem mergeSort_eq_of_perm (perm : l.Perm l')
    (ties : ∀ a ∈ l, ∀ b ∈ l, a.compare b = .eq → a = b) : l.mergeSort le = l'.mergeSort le := by
  have transitive (a b c : Diagnostic) (first : a.le b = true) (second : b.le c = true) :
      a.le c = true := le_trans first second
  have sorted (l : List Diagnostic) : (l.mergeSort le).Pairwise fun a b => a.le b = true :=
    @List.pairwise_mergeSort Diagnostic le transitive le_total l
  have same := ((List.mergeSort_perm l le).trans perm).trans (List.mergeSort_perm l' le).symm
  have antisymmetric (a b : Diagnostic) (first : a ∈ l.mergeSort le) (second : b ∈ l'.mergeSort le)
      (forth : a.le b = true) (back : b.le a = true) : a = b :=
    ties a (List.mem_mergeSort.1 first) b (perm.mem_iff.2 (List.mem_mergeSort.1 second))
      (compare_eq_of_le forth back)
  exact List.Perm.eq_of_pairwise antisymmetric (sorted l) (sorted l') same

end Diagnostic

end ConventionLint
