import Mathlib.Data.List.Forall2

/-!
# Tables and steps

What is found in a list of entries, and what comes of a step that may fail when it is taken for each
element of a list.
-/
namespace ConventionLint

section

variable {α β : Type} [DecidableEq α] {entries entries' : List (α × β)} {key : α} {value : β}

theorem mem_of_lookup (found : entries.lookup key = some value) : (key, value) ∈ entries := by
  obtain ⟨before, behind, rfl, -⟩ := List.lookup_eq_some_iff.1 found
  simp

theorem lookup_eq_some_iff_mem (distinct : (entries.map (·.1)).Nodup) :
    entries.lookup key = some value ↔ (key, value) ∈ entries := by
  refine ⟨mem_of_lookup, fun member => List.lookup_eq_some_iff.2 ?_⟩
  obtain ⟨before, behind, rfl⟩ := List.append_of_mem member
  refine ⟨before, behind, rfl, fun entry earlier => ?_⟩
  rw [List.map_append, List.map_cons, List.nodup_append] at distinct
  have other := distinct.2.2 entry.1 (List.mem_map.2 ⟨entry, earlier, rfl⟩) key (by simp)
  simpa using Ne.symm other

/-- Entries of different keys may stand in any order. -/
theorem lookup_eq_of_perm (distinct : (entries.map (·.1)).Nodup) (perm : entries.Perm entries')
    (key : α) : entries.lookup key = entries'.lookup key := by
  have distinct' := (perm.map (·.1)).nodup_iff.1 distinct
  ext value
  rw [lookup_eq_some_iff_mem distinct, lookup_eq_some_iff_mem distinct', perm.mem_iff]

end

section

variable {ε α β : Type} {f : α → Except ε β} {result : Except ε α} {g : α → β} {l : List α}

theorem bind_eq_ok {b : β} (run : result >>= f = .ok b) : ∃ a, result = .ok a ∧ f a = .ok b := by
  cases result with
  | error e => cases run
  | ok a => exact ⟨a, rfl, run⟩

theorem exists_bind_pure_iff :
    (∃ b, (result >>= fun a => pure (g a)) = .ok b) ↔ ∃ a, result = .ok a := by
  cases result with
  | error e => exact ⟨nofun, nofun⟩
  | ok a => exact ⟨fun _ => ⟨a, rfl⟩, fun _ => ⟨g a, rfl⟩⟩

theorem bind_pure_eq_error_iff {e : ε} :
    (result >>= fun a => pure (g a)) = .error e ↔ result = .error e := by
  cases result with
  | error fault => exact ⟨fun same => by cases same; rfl, fun same => by cases same; rfl⟩
  | ok a => exact ⟨nofun, nofun⟩

theorem forall₂_of_mapM {bs : List β} (done : l.mapM f = .ok bs) :
    List.Forall₂ (fun a b => f a = .ok b) l bs := by
  induction l generalizing bs with
  | nil =>
    cases done
    exact .nil
  | cons a l ih =>
    rw [List.mapM_cons] at done
    obtain ⟨b, first, done⟩ := bind_eq_ok done
    obtain ⟨others, rest, done⟩ := bind_eq_ok done
    cases done
    exact .cons first (ih rest)

theorem mem_iff_of_mapM {bs : List β} (done : l.mapM f = .ok bs) {b : β} :
    b ∈ bs ↔ ∃ a ∈ l, f a = .ok b := by
  have steps := forall₂_of_mapM done
  clear done
  induction steps with
  | nil => simp
  | cons first rest ih =>
    simp only [List.mem_cons, ih, exists_eq_or_imp, first, Except.ok.injEq, @eq_comm _ b]

theorem exists_mapM_iff : (∃ bs, l.mapM f = .ok bs) ↔ ∀ a ∈ l, ∃ b, f a = .ok b := by
  induction l with
  | nil => exact ⟨fun _ => nofun, fun _ => ⟨[], rfl⟩⟩
  | cons a l ih =>
    rw [List.forall_mem_cons, ← ih, List.mapM_cons]
    cases f a with
    | error e => exact ⟨nofun, nofun⟩
    | ok b => exact exists_bind_pure_iff.trans ⟨fun rest => ⟨⟨b, rfl⟩, rest⟩, And.right⟩

/-- Whether a step fails on an element. -/
def fails (f : α → Except ε β) (a : α) : Bool :=
  !(f a).isOk

theorem fails_eq_true_iff {a : α} : fails f a = true ↔ ∃ e, f a = .error e := by
  rw [fails]
  cases f a with
  | error e => exact ⟨fun _ => ⟨e, rfl⟩, fun _ => rfl⟩
  | ok b => exact ⟨nofun, nofun⟩

/-- Of several failures that of the first element counts. -/
theorem mapM_eq_error_iff {e : ε} :
    l.mapM f = .error e ↔ ∃ a, l.find? (fails f) = some a ∧ f a = .error e := by
  induction l with
  | nil => exact ⟨nofun, nofun⟩
  | cons a l ih =>
    cases first : f a with
    | error fault =>
      have failed : fails f a = true := fails_eq_true_iff.2 ⟨fault, first⟩
      rw [List.mapM_cons, first, List.find?_cons_of_pos failed]
      change Except.error fault = Except.error e ↔ _
      constructor
      · intro same
        cases same
        exact ⟨a, rfl, first⟩
      · rintro ⟨b, same, failing⟩
        cases same
        rw [first] at failing
        cases failing
        rfl
    | ok b =>
      have passed : ¬fails f a = true := by
        rw [fails, first]
        exact nofun
      rw [List.find?_cons_of_neg passed, ← ih, List.mapM_cons, first]
      exact bind_pure_eq_error_iff

end

end ConventionLint
