import ConventionLint.Proofs.Lists
import ConventionLint.Proofs.Source.PlainReading

/-!
# What readers of types leave

A reader takes tokens from the front and leaves an end of what there was. The readers of types call
each other and may fail, so this is shown of the three together, for ever more tokens.
-/
namespace ConventionLint.Source

variable {ts rest : List Token}

theorem typeOf_shorter {depth : Nat} {type : WrittenType}
    (run : typeOf depth ts = .ok (some type, rest)) : rest.length < ts.length := by
  rw [typeOf] at run
  cases read : readType depth ts with
  | error fault =>
    rw [read] at run
    cases run
  | ok reading =>
    rw [read] at run
    obtain ⟨found, rfl⟩ := Prod.mk.inj (Except.ok.inj run)
    exact reading.shorter (found ▸ rfl)

theorem length_of_plain {α : Type} {result : Except Fault (Reading α ts)}
    {found : α × List Token} (run : plain result = .ok found) : found.2.length ≤ ts.length := by
  cases result with
  | error fault => cases run
  | ok reading =>
    obtain rfl := Except.ok.inj run
    exact reading.bound

/-- The three readers of types leave an end of what there was, for at most `n` tokens. -/
structure LeavesEnd (n : Nat) : Prop where
  type {depth : Nat} {ts : List Token} {found : Option WrittenType × List Token} :
    ts.length ≤ n → typeOf depth ts = .ok found → found.2 <:+ ts
  segments {depth : Nat} {names : List String} {arguments : List WrittenType} {ts : List Token}
    {found : WrittenType × List Token} :
    ts.length ≤ n → segmentsOf depth names arguments ts = .ok found → found.2 <:+ ts
  arguments {depth : Nat} {read : List WrittenType} {ts : List Token}
    {found : List WrittenType × List Token} :
    ts.length ≤ n → argumentsOf depth read ts = .ok found → found.2 <:+ ts

section

variable {n depth : Nat} (shorter : ∀ m < n, LeavesEnd m) (bound : ts.length ≤ n)
include shorter bound

theorem typeOf_suffix_of_shorter {found : Option WrittenType × List Token}
    (run : typeOf depth ts = .ok found) : found.2 <:+ ts := by
  rw [typeOf_eq] at run
  split at run
  · obtain rfl := Except.ok.inj run
    exact (skipSuffixes_suffix _).trans (skipBalanced_suffix ts)
  · have global := skipGlobal_suffix ts
    split at run
    · obtain rfl := Except.ok.inj run
      exact List.nil_suffix
    · next t rest named =>
      rw [named] at global
      have fewer : rest.length < ts.length := global.length_le
      split at run
      · obtain ⟨⟨type, left⟩, segments, run⟩ := bind_eq_ok run
        obtain rfl := Except.ok.inj run
        have left_suffix : left <:+ rest :=
          (shorter rest.length (by omega)).segments (Nat.le_refl _) segments
        exact left_suffix.trans ((List.suffix_cons t rest).trans global)
      · obtain rfl := Except.ok.inj run
        exact global

theorem argumentListOf_suffix_of_shorter {arguments : List WrittenType}
    {found : List WrittenType × List Token}
    (run : argumentListOf depth arguments ts = .ok found) : found.2 <:+ ts := by
  rw [argumentListOf] at run
  split at run
  · next opened =>
    obtain ⟨inner, -, run⟩ := bind_eq_ok run
    have fewer : ts.tail.length < ts.length := tail_shorter opened
    exact ((shorter ts.tail.length (by omega)).arguments (Nat.le_refl _) run).trans
      (List.tail_suffix ts)
  · obtain rfl := Except.ok.inj run
    exact List.suffix_rfl

theorem segmentsOf_suffix_of_shorter {names : List String} {arguments : List WrittenType}
    {found : WrittenType × List Token} (run : segmentsOf depth names arguments ts = .ok found) :
    found.2 <:+ ts := by
  rw [segmentsOf_eq] at run
  obtain ⟨⟨listed, behind⟩, list, run⟩ := bind_eq_ok run
  have behind_suffix : behind <:+ ts := argumentListOf_suffix_of_shorter shorter bound list
  have ended : skipSuffixes behind <:+ ts := (skipSuffixes_suffix behind).trans behind_suffix
  dsimp only at run
  split at run
  · next separator name more =>
    have more_suffix : more <:+ ts :=
      ((List.suffix_cons _ _).trans (List.suffix_cons _ _)).trans behind_suffix
    have fewer : more.length < ts.length := by
      have := behind_suffix.length_le
      simp only [List.length_cons] at this
      omega
    split at run
    · exact ((shorter more.length (by omega)).segments (Nat.le_refl _) run).trans more_suffix
    · split at run
      · exact ((shorter more.length (by omega)).segments (Nat.le_refl _) run).trans more_suffix
      · obtain rfl := Except.ok.inj run
        exact ended
  · obtain rfl := Except.ok.inj run
    exact ended

theorem argumentsOf_suffix_of_shorter {read : List WrittenType}
    {found : List WrittenType × List Token} (run : argumentsOf depth read ts = .ok found) :
    found.2 <:+ ts := by
  cases ts with
  | nil =>
    rw [argumentsOf_nil] at run
    obtain rfl := Except.ok.inj run
    exact List.suffix_rfl
  | cons t rest =>
    have further {read : List WrittenType} {left : List Token} (left_suffix : left <:+ t :: rest)
        (fewer : left.length < (t :: rest).length) (run : argumentsOf depth read left = .ok found) :
        found.2 <:+ t :: rest :=
      ((shorter left.length (by omega)).arguments (Nat.le_refl _) run).trans left_suffix
    rw [argumentsOf_cons] at run
    split at run
    · obtain rfl := Except.ok.inj run
      exact List.suffix_cons t rest
    · split at run
      · exact further (List.suffix_cons t rest) (Nat.lt_succ_self _) run
      · split at run
        · obtain rfl := Except.ok.inj run
          exact List.suffix_rfl
        · obtain ⟨⟨type?, left⟩, typed, run⟩ := bind_eq_ok run
          have left_suffix : left <:+ t :: rest := typeOf_suffix_of_shorter shorter bound typed
          cases type? with
          | some argument => exact further left_suffix (typeOf_shorter typed) run
          | none =>
            refine further ((List.tail_suffix left).trans left_suffix) ?_ run
            have := left_suffix.length_le
            simp only [List.length_tail, List.length_cons] at this ⊢
            omega

end

theorem leavesEnd (n : Nat) : LeavesEnd n := by
  induction n using Nat.strongRecOn with
  | ind n shorter =>
    exact ⟨fun bound run => typeOf_suffix_of_shorter shorter bound run,
      fun bound run => segmentsOf_suffix_of_shorter shorter bound run,
      fun bound run => argumentsOf_suffix_of_shorter shorter bound run⟩

theorem typeOf_suffix {depth : Nat} {found : Option WrittenType × List Token}
    (run : typeOf depth ts = .ok found) : found.2 <:+ ts :=
  (leavesEnd ts.length).type (Nat.le_refl _) run

theorem basesOf_suffix {depth : Nat} {read : List WrittenType}
    {found : List WrittenType × List Token} (run : basesOf depth read ts = .ok found) :
    found.2 <:+ ts := by
  induction bound : ts.length using Nat.strongRecOn generalizing ts read with
  | ind n ih =>
    rw [basesOf_eq] at run
    obtain ⟨⟨type?, left⟩, typed, run⟩ := bind_eq_ok run
    have left_suffix : left <:+ ts := typeOf_suffix typed
    cases type? with
    | none =>
      obtain rfl := Except.ok.inj run
      exact left_suffix
    | some base =>
      have behind : skipParameters left <:+ ts := (skipParameters_suffix left).trans left_suffix
      dsimp only at run
      split at run
      · have fewer : (skipParameters left).tail.length < ts.length := by
          have := (skipParameters_suffix left).length_le
          have := typeOf_shorter typed
          simp only [List.length_tail]
          omega
        exact (ih _ (bound ▸ fewer) run rfl).trans ((List.tail_suffix _).trans behind)
      · obtain rfl := Except.ok.inj run
        exact behind

theorem baseListOf_suffix {depth : Nat} {found : List WrittenType × List Token}
    (run : baseListOf depth ts = .ok found) : found.2 <:+ ts := by
  rw [baseListOf] at run
  split at run
  · exact (basesOf_suffix run).trans (List.tail_suffix ts)
  · obtain rfl := Except.ok.inj run
    exact List.suffix_rfl

theorem usingOf_suffix {depth : Nat} {read : Contents} {found : Contents × List Token}
    (run : usingOf depth read ts = .ok found) : found.2 <:+ ts := by
  rw [usingOf_eq] at run
  split at run
  · next name rest aliased =>
    obtain ⟨⟨type?, left⟩, typed, run⟩ := bind_eq_ok run
    obtain rfl := Except.ok.inj run
    exact (skipMember_suffix 0 left).trans
      ((typeOf_suffix typed).trans (aliasBehind_suffix aliased))
  · split at run
    · obtain rfl := Except.ok.inj run
      exact (skipOne_suffix _ _).trans (readDottedName_suffix ts)
    · obtain rfl := Except.ok.inj run
      exact skipMember_suffix 0 ts

end ConventionLint.Source
