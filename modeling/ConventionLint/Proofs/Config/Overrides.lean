import ConventionLint.Config.Edit
import ConventionLint.Proofs.Config.ValidLinter
import Mathlib.Data.List.MinMax
import Mathlib.Data.String.Basic

/-!
# The last word on a rule

Edits keep what they say of a rule under the code as they write it, while a rule looks for its code
in any case and takes the first override. So only the edits that write the code in the least of the
ways in which it is written count, and of these the last one.
-/
namespace ConventionLint

/-- What an edit says of a rule: the severity at which it is in, or that it is not. -/
structure RuleWord where
  code : String
  severity : Option Severity
deriving DecidableEq, Repr

namespace RuleWord

def override (word : RuleWord) : RuleOverride :=
  ⟨word.severity.isSome, word.severity⟩

/-- The words with the least code of all. -/
def leastSpelled (words : List RuleWord) : List RuleWord :=
  words.filter fun word => words.all fun other => word.code ≤ other.code

end RuleWord

def ConfigEdit.word? : ConfigEdit → Option RuleWord
  | .disableRule code => some ⟨code, none⟩
  | .ruleSeverity code severity => some ⟨code, some severity⟩
  | _ => none

namespace Rule

/-- What edits say of a rule, its code in any case. -/
def wordsIn (rule : Rule) (edits : List ConfigEdit) : List RuleWord :=
  (edits.filterMap (·.word?)).filter fun word =>
    Descriptor.sameCode word.code rule.descriptor.code

/-- A rule as a word wants it, and without one at its own severity. -/
def asTold (rule : Rule) : Option RuleWord → Option RegisteredRule
  | none => some (.standard rule)
  | some word => word.severity.map fun severity => ⟨rule, severity⟩

end Rule

namespace Config

section

variable {code : String} {o : RuleOverride} {rules : List (String × RuleOverride)}
  {entry : String × RuleOverride} {p : String × RuleOverride → Bool}

/-- Each code comes before all that follow. -/
def InOrder (rules : List (String × RuleOverride)) : Prop :=
  rules.Pairwise (·.1 < ·.1)

theorem mem_putOverride (ordered : InOrder rules) : entry ∈ putOverride code o rules ↔
    entry = (code, o) ∨ entry ∈ rules ∧ entry.1 ≠ code := by
  induction rules with
  | nil => simp [putOverride]
  | cons first rest ih =>
    obtain ⟨above, ordered⟩ := List.pairwise_cons.1 ordered
    by_cases same : code = first.1
    · have others : ∀ entry ∈ rest, entry.1 ≠ code :=
        fun entry member => same ▸ (above entry member).ne'
      simp only [putOverride, if_pos same, List.mem_cons]
      grind
    · by_cases front : code < first.1
      · have others : ∀ entry ∈ rest, entry.1 ≠ code :=
          fun entry member => (front.trans (above entry member)).ne'
        simp only [putOverride, if_neg same, if_pos front, List.mem_cons]
        grind
      · simp only [putOverride, if_neg same, if_neg front, List.mem_cons, ih ordered]
        grind

theorem inOrder_putOverride (ordered : InOrder rules) : InOrder (putOverride code o rules) := by
  induction rules with
  | nil => simp [putOverride, InOrder]
  | cons first rest ih =>
    obtain ⟨above, further⟩ := List.pairwise_cons.1 ordered
    by_cases same : code = first.1
    · rw [putOverride, if_pos same]
      exact List.pairwise_cons.2 ⟨above, further⟩
    · by_cases front : code < first.1
      · rw [putOverride, if_neg same, if_pos front]
        exact List.pairwise_cons.2
          ⟨List.forall_mem_cons.2 ⟨front, fun entry member => front.trans (above entry member)⟩,
            ordered⟩
      · rw [putOverride, if_neg same, if_neg front]
        refine List.pairwise_cons.2 ⟨fun entry member => ?_, ih further⟩
        rcases (mem_putOverride further).1 member with rfl | ⟨member, -⟩
        · exact (not_lt.1 front).lt_of_ne' same
        · exact above entry member

/-- The first entry with a property is the one with the least code. -/
theorem find?_eq_some_of_least (ordered : InOrder rules) (member : entry ∈ rules)
    (holds : p entry = true) (least : ∀ other ∈ rules, p other = true → entry.1 ≤ other.1) :
    rules.find? p = some entry := by
  induction rules with
  | nil => cases member
  | cons first rest ih =>
    obtain ⟨above, further⟩ := List.pairwise_cons.1 ordered
    rw [List.forall_mem_cons] at least
    rcases List.mem_cons.1 member with rfl | member
    · exact List.find?_cons_of_pos holds
    · have passed : ¬p first = true :=
        fun found => (above entry member).not_ge (least.1 found)
      rw [List.find?_cons_of_neg passed]
      exact ih further member least.2

end

section

variable {words : List RuleWord} {word : RuleWord} {code : String} {o : RuleOverride}
  {edits : List ConfigEdit} {rule : Rule} {c : Config}

/-- The overrides that words leave behind. -/
def overrides (words : List RuleWord) : List (String × RuleOverride) :=
  words.foldl (fun rules word => putOverride word.code word.override rules) []

theorem overrides_concat : overrides (words ++ [word]) =
    putOverride word.code word.override (overrides words) := by
  rw [overrides, List.foldl_concat, overrides]

theorem inOrder_overrides : InOrder (overrides words) := by
  induction words using List.reverseRecOn with
  | nil => exact .nil
  | append_singleton words word ih =>
    rw [overrides_concat]
    exact inOrder_putOverride ih

/-- Under each code as written stands what the last word with that very code says. -/
theorem mem_overrides : (code, o) ∈ overrides words ↔
    ∃ word, (words.filter (·.code = code)).getLast? = some word ∧ word.override = o := by
  induction words using List.reverseRecOn with
  | nil => simp [overrides]
  | append_singleton words word ih =>
    -- the word's own entry is what it says, and those of other codes stand as they were
    rw [overrides_concat, mem_putOverride inOrder_overrides, ih, List.filter_append,
      List.getLast?_append]
    by_cases same : word.code = code
    · simp [same, eq_comm]
    · simp [same, Ne.symm same]

theorem rules_apply (c : Config) (edit : ConfigEdit) : (c.apply edit).rules =
    edit.word?.elim c.rules fun word => putOverride word.code word.override c.rules := by
  cases edit <;> rfl

theorem rules_edited (edits : List ConfigEdit) :
    (edited edits).rules = overrides (edits.filterMap (·.word?)) := by
  induction edits using List.reverseRecOn with
  | nil => rfl
  | append_singleton edits edit ih =>
    rw [edited, List.foldl_concat, ← edited, rules_apply, ih, List.filterMap_append]
    cases said : edit.word? with
    | none => simp [said]
    | some word => simp [said, overrides_concat]

theorem mem_leastSpelled : word ∈ RuleWord.leastSpelled words ↔
    word ∈ words ∧ ∀ other ∈ words, word.code ≤ other.code := by
  simp [RuleWord.leastSpelled]

theorem leastSpelled_eq_nil_iff : RuleWord.leastSpelled words = [] ↔ words = [] := by
  constructor
  · intro none
    cases least : words.argmin (·.code) with
    | none => exact List.argmin_eq_none.1 least
    | some word =>
      have member : word ∈ RuleWord.leastSpelled words := mem_leastSpelled.2
        ⟨List.argmin_mem least, fun other member => List.le_of_mem_argmin member least⟩
      rw [none] at member
      cases member
  · rintro rfl
    rfl

theorem mem_wordsIn : word ∈ rule.wordsIn edits ↔
    word ∈ edits.filterMap (·.word?) ∧
      Descriptor.sameCode word.code rule.descriptor.code = true := by
  rw [Rule.wordsIn, List.mem_filter]

/-- The least spelled words on a rule are all words with that very code. -/
theorem leastSpelled_wordsIn (least : word ∈ RuleWord.leastSpelled (rule.wordsIn edits)) :
    RuleWord.leastSpelled (rule.wordsIn edits) =
      (edits.filterMap (·.word?)).filter (·.code = word.code) := by
  obtain ⟨member, below⟩ := mem_leastSpelled.1 least
  have named := (mem_wordsIn.1 member).2
  rw [RuleWord.leastSpelled, Rule.wordsIn, List.filter_filter]
  refine List.filter_congr fun other said => ?_
  rw [Bool.eq_iff_iff, Bool.and_eq_true, List.all_eq_true, ← Rule.wordsIn]
  simp only [decide_eq_true_eq]
  constructor
  · rintro ⟨others, on⟩
    exact le_antisymm (others word member) (below other (mem_wordsIn.2 ⟨said, on⟩))
  · intro same
    exact ⟨fun third on => same ▸ below third on, same ▸ named⟩

theorem override?_edited (last : (RuleWord.leastSpelled (rule.wordsIn edits)).getLast? = some word) :
    (edited edits).override? rule.descriptor.code = some word.override := by
  have least := List.mem_of_getLast? last
  obtain ⟨member, below⟩ := mem_leastSpelled.1 least
  have found : (overrides (edits.filterMap (·.word?))).find?
      (fun entry => Descriptor.sameCode entry.1 rule.descriptor.code) =
        some (word.code, word.override) := by
    apply find?_eq_some_of_least inOrder_overrides
    · exact mem_overrides.2 ⟨word, leastSpelled_wordsIn least ▸ last, rfl⟩
    · exact (mem_wordsIn.1 member).2
    · -- each entry for the rule is that of a word on it, and no such word has a lesser code
      rintro ⟨code, o⟩ entry named
      obtain ⟨other, other_last, -⟩ := mem_overrides.1 entry
      have other_member := List.mem_filter.1 (List.mem_of_getLast? other_last)
      obtain rfl : other.code = code := by simpa using other_member.2
      exact below other (mem_wordsIn.2 ⟨other_member.1, named⟩)
  rw [override?, rules_edited]
  exact congrArg (Option.map Prod.snd) found

theorem override?_edited_of_unnamed (unnamed : rule.wordsIn edits = []) :
    (edited edits).override? rule.descriptor.code = none := by
  rw [override?, Option.map_eq_none_iff, List.find?_eq_none, rules_edited]
  rintro ⟨code, o⟩ entry named
  obtain ⟨word, last, -⟩ := mem_overrides.1 entry
  have member := List.mem_filter.1 (List.mem_of_getLast? last)
  obtain rfl : word.code = code := by simpa using member.2
  have on : word ∈ rule.wordsIn edits := mem_wordsIn.2 ⟨member.1, named⟩
  rw [unnamed] at on
  cases on

theorem register_edited (edits : List ConfigEdit) (rule : Rule) : (edited edits).register rule =
    rule.asTold (RuleWord.leastSpelled (rule.wordsIn edits)).getLast? := by
  rw [register]
  cases last : (RuleWord.leastSpelled (rule.wordsIn edits)).getLast? with
  | none =>
    rw [override?_edited_of_unnamed (leastSpelled_eq_nil_iff.1 (List.getLast?_eq_none_iff.1 last))]
    rfl
  | some word =>
    rw [override?_edited last]
    cases told : word.severity <;> simp [RuleWord.override, Rule.asTold, told]

/-- A last word that is least spelled is the last of the least spelled ones. -/
theorem getLast?_leastSpelled
    (least : ∀ last ∈ words.getLast?, ∀ word ∈ words, last.code ≤ word.code) :
    (RuleWord.leastSpelled words).getLast? = words.getLast? := by
  rcases List.eq_nil_or_concat' words with rfl | ⟨front, last, rfl⟩
  · rfl
  · have kept : (front ++ [last]).all (fun word => last.code ≤ word.code) = true := by
      simpa only [List.all_eq_true, decide_eq_true_eq] using least last (by simp)
    rw [RuleWord.leastSpelled, List.filter_append, List.filter_cons, if_pos kept]
    simp

theorem built_eq_ok_iff : built edits = .ok c ↔ (edited edits).check = .ok () ∧ edited edits = c := by
  rw [built, validated, validatedWith, ← check]
  cases (edited edits).check <;> simp

/-- Of what edits say of a rule, the last word under the least spelling of its code decides whether
the rule is in, and at which severity; one that they do not name is in at its own. So the last word
of all counts where no earlier one has a lesser spelling. -/
theorem least_spelling_decides (done : built edits = .ok c) :
    c.ruleSet = .ok ⟨Rule.standard.filterMap c.register, c.reportInternalErrors⟩ ∧ ∀ rule,
      c.register rule = rule.asTold (RuleWord.leastSpelled (rule.wordsIn edits)).getLast? ∧
      ((∀ last ∈ (rule.wordsIn edits).getLast?, ∀ word ∈ rule.wordsIn edits,
          last.code ≤ word.code) →
        c.register rule = rule.asTold (rule.wordsIn edits).getLast?) := by
  obtain ⟨valid, rfl⟩ := built_eq_ok_iff.1 done
  refine ⟨(isValid_of_check valid).ruleSet_eq, fun rule => ⟨register_edited edits rule, ?_⟩⟩
  intro least
  rw [register_edited, getLast?_leastSpelled least]

/-- The standard configuration is valid with any overrides that name rules. -/
theorem check_standard_withRules {rules : List (String × RuleOverride)}
    (named : ∀ rule ∈ rules, isRuleCode rule.1 = true) :
    ({ standard with rules } : Config).check = .ok () := by
  have valid := isValid_of_check check_standard
  exact checkWith_eq_ok_iff.2 ⟨valid.version, valid.markers, named, valid.patterns⟩

/-- Raises a rule to an error and then disables it under its code in small letters. -/
def raisedThenDisabled : List ConfigEdit :=
  [.ruleSeverity "SS001" .error, .disableRule "ss001"]

/-- Not always does the last word on a rule count: here the rule stays in. -/
theorem later_spelling_passed_over :
    ¬∀ edits c, built edits = .ok c → ∃ rules, c.ruleSet = .ok rules ∧
      rules.rules = Rule.standard.filterMap fun rule =>
        rule.asTold (rule.wordsIn edits).getLast? := by
  intro claim
  have valid : (edited raisedThenDisabled).check = .ok () :=
    check_standard_withRules (by decide +kernel)
  obtain ⟨rules, registered, told⟩ := claim raisedThenDisabled _ (built_eq_ok_iff.2 ⟨valid, rfl⟩)
  rw [(isValid_of_check valid).ruleSet_eq] at registered
  cases registered
  have codes := congrArg (List.map (·.rule.descriptor.code)) told
  revert codes
  decide +kernel

theorem least_spelling_decides_raised :
    (edited raisedThenDisabled).register Rule.commandNaming =
      some ⟨Rule.commandNaming, .error⟩ ∧
    (edited (raisedThenDisabled ++ [.disableRule "SS001"])).register Rule.commandNaming = none := by
  have done : built raisedThenDisabled = .ok (edited raisedThenDisabled) :=
    built_eq_ok_iff.2 ⟨check_standard_withRules (by decide +kernel), rfl⟩
  have redone : built (raisedThenDisabled ++ [.disableRule "SS001"]) =
      .ok (edited (raisedThenDisabled ++ [.disableRule "SS001"])) :=
    built_eq_ok_iff.2 ⟨check_standard_withRules (by decide +kernel), rfl⟩
  exact ⟨((least_spelling_decides done).2 _).1,
    ((least_spelling_decides redone).2 _).2 (by decide +kernel)⟩

end

end Config

end ConventionLint
