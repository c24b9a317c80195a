import ConventionLint.Config.Validation

/-!
# What makes a configuration valid

The checks of a configuration come one after the other, and it is valid when each of them passes.
-/
namespace ConventionLint

section

variable {ε α : Type}

theorem bind_eq_ok_iff {first rest : Except ε Unit} :
    (first >>= fun _ => rest) = .ok () ↔ first = .ok () ∧ rest = .ok () := by
  cases first with
  | error e => exact ⟨nofun, nofun⟩
  | ok => exact ⟨fun passed => ⟨rfl, passed⟩, And.right⟩

theorem forM_eq_ok_iff {f : α → Except ε Unit} {as : List α} :
    as.forM f = .ok () ↔ ∀ a ∈ as, f a = .ok () := by
  induction as with
  | nil => exact ⟨fun _ => nofun, fun _ => rfl⟩
  | cons a as ih => rw [List.forM, bind_eq_ok_iff, ih, List.forall_mem_cons]

end

theorem MarkerKind.mem_all (kind : MarkerKind) : kind ∈ all := by
  cases kind <;> decide

namespace Config

variable {compile : Glob.Compiler} {c : Config}

theorem require_eq_ok_iff {holds : Bool} {fault : ConfigFault} :
    require holds fault = .ok () ↔ holds = true := by
  cases holds
  · exact ⟨nofun, nofun⟩
  · exact ⟨fun _ => rfl, fun _ => rfl⟩

theorem checkPattern_eq_ok_iff {written : String} :
    checkPattern compile written = .ok () ↔
      ∃ tokens, compile (patternText written) = .ok tokens := by
  rw [checkPattern]
  cases compile (patternText written) with
  | error fault => exact ⟨nofun, nofun⟩
  | ok tokens => exact ⟨fun _ => ⟨tokens, rfl⟩, fun _ => rfl⟩

/-- Each part is what it has to be, patterns being written in the syntax that `compile` knows. -/
structure IsValid (compile : Glob.Compiler) (c : Config) : Prop where
  version : c.version ∈ supportedVersions
  markers : ∀ kind, isIdentity (c.markers.identity kind) = true
  rules : ∀ rule ∈ c.rules, isRuleCode rule.1 = true
  patterns : ∀ written ∈ c.patterns, ∃ tokens, compile (patternText written) = .ok tokens

theorem checkWith_eq_ok_iff : c.checkWith compile = .ok () ↔ c.IsValid compile := by
  simp only [checkWith, bind_eq_ok_iff, forM_eq_ok_iff, require_eq_ok_iff, checkPattern_eq_ok_iff,
    List.contains_iff_mem]
  exact ⟨fun ⟨version, markers, rules, patterns⟩ =>
      ⟨version, fun kind => markers kind kind.mem_all, rules, patterns⟩,
    fun valid => ⟨valid.version, fun kind _ => valid.markers kind, valid.rules, valid.patterns⟩⟩

instance : Decidable (c.checkWith compile = .ok ()) :=
  decidable_of_iff ((c.checkWith compile).isOk = true) <| by
    cases c.checkWith compile with
    | error fault => exact ⟨nofun, nofun⟩
    | ok => exact ⟨fun _ => rfl, fun _ => rfl⟩

instance : Decidable (c.check = .ok ()) :=
  inferInstanceAs (Decidable (c.checkWith Glob.compile = .ok ()))

theorem isValid_of_check (valid : c.check = .ok ()) : c.IsValid Glob.compile :=
  checkWith_eq_ok_iff.1 valid

theorem check_standard : standard.check = .ok () := by
  decide +kernel

theorem isIdentity_of_check (valid : c.check = .ok ()) (kind : MarkerKind) :
    isIdentity (c.markers.identity kind) = true :=
  (isValid_of_check valid).markers kind

end Config

end ConventionLint
