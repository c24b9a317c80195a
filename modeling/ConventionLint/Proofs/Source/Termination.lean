import ConventionLint.Proofs.Source.MachineReading
import ConventionLint.Proofs.Source.TokenLoops

/-!
# Reading ends

The machine comes back from whatever it calls or enters, and every turn of a loop leaves it or takes
tokens. So a file is read to its last token and nothing stays entered, whatever the tokens are; the
only fault is a construct that is entered at full depth.

A turn need not take its tokens at once. What it calls for may take none, as a type that is none does;
then what follows takes one, since the turn did not start at a closing brace. Hence a turn is followed
to its end, and only there the tokens are counted.
-/
namespace ConventionLint.Source.Machine

variable {p q : Part} {ts us all : List Token} {depth : Nat} {fault : Option Fault}
  {stack : Stack p}

/-- Whatever is called or entered comes to give a value to the same stack, at the same depth. -/
theorem exists_returns (task : Task p) (ts : List Token) (depth : Nat) :
    ∃ result, Returns true (.run task) ts depth result := by
  cases task with
  | scope qualifier found => exact ⟨_, returns_scope qualifier found⟩
  | declaration qualifier modifiers keyword =>
    exact ⟨_, returns_declaration qualifier modifiers keyword⟩
  | headed =>
    exact ⟨_, returns_headed_of_shorter (fun m _ => readsBodies m) (Nat.le_refl _) _ _ _⟩
  | bases found => exact ⟨_, returns_bases found⟩
  | body => exact ⟨_, (readsBodies ts.length).body (Nat.le_refl _)⟩
  | type => exact ⟨_, returns_type⟩
  | segments => exact ⟨_, (readsTypes ts.length).segments (Nat.le_refl _)⟩
  | separator =>
    exact ⟨_, returns_separator_of_shorter (fun m _ => readsTypes m) (Nat.le_refl _) _ _⟩
  | arguments => exact ⟨_, (readsTypes ts.length).arguments (Nat.le_refl _)⟩

theorem Settles.cases {α : Type} {result : Except Fault (α × List Token)} {value : α}
    {fault' : Option Fault} (settles : Settles fault result value ts fault') :
    result = .ok (value, ts) ∨ ts = [] := by
  cases settles with
  | ok => exact .inl rfl
  | error => exact .inr rfl

/-- The heads of loops. No part has more than one. -/
inductive Loop : {p : Part} → Task p → Prop where
  | scope (qualifier : Option String) (found : Contents) : Loop (.scope qualifier found)
  | bases (found : List WrittenType) : Loop (.bases found)
  | body (qualifier : Option String) (owner : Owner) (found : TypeBody) :
    Loop (.body qualifier owner found)
  | segments (names : List String) (listed : List WrittenType) : Loop (.segments names listed)
  | arguments (found : List WrittenType) : Loop (.arguments found)

/-- If a state is at the head of a loop over the stack, it has fewer tokens than `all`. -/
def Advanced (all : List Token) (stack : Stack p) (s : State) : Prop :=
  ∀ (task : Task p) (rest : List Token) (depth : Nat) (fault : Option Fault),
    Loop task → s = ⟨p, .run task, stack, rest, depth, fault⟩ → rest.length < all.length

/-- A run that comes to heads of loops over the stack with fewer tokens than `all` only. -/
def Advances (all : List Token) (stack : Stack p) : State → State → Prop :=
  Relation.ReflTransGen fun s s' => step s = some s' ∧ Advanced all stack s'

namespace Advances

variable {s t u : State}

theorem refl (s : State) : Advances all stack s s :=
  Relation.ReflTransGen.refl

theorem trans (first : Advances all stack s t) (second : Advances all stack t u) :
    Advances all stack s u :=
  Relation.ReflTransGen.trans first second

theorem head (taken : step s = some t) (advanced : Advanced all stack t)
    (further : Advances all stack t u) : Advances all stack s u :=
  Relation.ReflTransGen.head ⟨taken, advanced⟩ further

theorem advanced_of_height (higher : stack.height < s.stack.height) : Advanced all stack s := by
  rintro task rest depth fault - rfl
  exact absurd higher (Nat.lt_irrefl _)

/-- While more is open than the stack, no loop over it is at its head. -/
theorem of_over (above : LeadsOver (stack.height + 1) s t) : Advances all stack s t :=
  Relation.ReflTransGen.mono (fun _ _ taken => ⟨taken.1, advanced_of_height taken.2⟩) _ _ above

/-- There is only one run: what it comes to has advanced, or comes behind the end of these steps. -/
theorem advanced_or_behind (advances : Advances all stack s t)
    (reached : Relation.TransGen (StepOver stack.height) s u) :
    Advanced all stack u ∨ Relation.TransGen (StepOver stack.height) t u := by
  induction advances using Relation.ReflTransGen.head_induction_on with
  | refl => exact .inr reached
  | @head s m taken _ ih =>
    rcases Relation.TransGen.head'_iff.1 reached with ⟨next, first, further⟩
    obtain rfl : m = next := Option.some.inj (taken.1.symm.trans first.1)
    rcases Relation.reflTransGen_iff_eq_or_transGen.1 further with rfl | further
    · exact .inl taken.2
    · exact ih further

end Advances

/-- A turn that started with the tokens `all` leaves the loop, or is at its head with fewer. -/
inductive EndsTurn (all : List Token) : Control p → List Token → Prop where
  | leave (value : p.Value) (rest : List Token) : EndsTurn all (.give value) rest
  | again {task : Task p} {rest : List Token} (loop : Loop task)
    (fewer : rest.length < all.length) : EndsTurn all (.run task) rest

/-- The machine comes to the end of a turn with stack and depth as before. -/
def Turns (all : List Token) (control : Control p) (ts : List Token) (stack : Stack p)
    (depth : Nat) (fault : Option Fault) : Prop :=
  ∃ control' rest fault', EndsTurn all control' rest ∧ Advances all stack
    ⟨p, control, stack, ts, depth, fault⟩ ⟨p, control', stack, rest, depth, fault'⟩

/-- The machine is in a turn and comes to its end. -/
structure Finishes (all : List Token) (control : Control p) (ts : List Token) (stack : Stack p)
    (depth : Nat) (fault : Option Fault) : Prop where
  advanced : Advanced all stack ⟨p, control, stack, ts, depth, fault⟩
  turns : Turns all control ts stack depth fault

section

variable {task : Task p} {control : Control p} {frame : Frame q p} {callee : Task q}
  {construct : Construct q p}

theorem EndsTurn.finishes (ended : EndsTurn all control ts) :
    Finishes all control ts stack depth fault where
  advanced := by
    rintro task rest depth fault loop same
    cases same
    cases ended with
    | again _ fewer => exact fewer
  turns := ⟨control, ts, fault, ended, .refl _⟩

namespace Finishes

theorem again (loop : Loop task) (fewer : ts.length < all.length) :
    Finishes all (.run task) ts stack depth fault :=
  (EndsTurn.again loop fewer).finishes

theorem leave (value : p.Value) : Finishes all (.give value) ts stack depth fault :=
  (EndsTurn.leave value ts).finishes

theorem enter (refused : ∀ fault', Finishes all construct.refused [] stack depth fault')
    (next : ∀ value rest fault', rest <:+ us → Finishes all (construct.resume rest value).1
      (construct.resume rest value).2 stack depth fault') :
    Finishes all (.enter construct) us stack depth fault where
  advanced := by
    rintro task rest depth fault - same
    cases same
  turns := by
    obtain ⟨-, opens⟩ | ⟨tooDeep, -, refuses⟩ := step_enter construct stack us depth fault
    · obtain ⟨result, returns⟩ :=
        exists_returns construct.task (construct.opened us) (depth + 1)
      obtain ⟨value, rest, fault', -, given⟩ := returns (.entered construct stack) fault rfl
      have ending := given.leads.rest_suffix.trans (opened_suffix construct us)
      obtain ⟨advanced, control', left, fault'', ended, reached⟩ := next value rest fault' ending
      refine ⟨control', left, fault'', ended, ?_⟩
      exact .head opens (Advances.advanced_of_height (Nat.lt_succ_self _)) <|
        (Advances.of_over given).trans (.head rfl advanced reached)
    · obtain ⟨advanced, control', left, fault', ended, reached⟩ := refused (fault.or (some tooDeep))
      exact ⟨control', left, fault', ended, .head refuses advanced reached⟩

end Finishes

namespace Turns

theorem go (moves : task.move stack.isBraced ts = .go control us)
    (next : Finishes all control us stack depth fault) :
    Turns all (.run task) ts stack depth fault := by
  obtain ⟨advanced, control', rest, fault', ended, reached⟩ := next
  exact ⟨control', rest, fault', ended, .head (step_go moves) advanced reached⟩

theorem call {result : Except Fault (q.Value × List Token)}
    (moves : task.move stack.isBraced ts = .call frame callee us)
    (called : Returns true (.run callee) us depth result)
    (next : ∀ value rest fault', Settles fault result value rest fault' → rest <:+ us →
      Finishes all (frame.resume rest value).1 (frame.resume rest value).2 stack depth fault') :
    Turns all (.run task) ts stack depth fault := by
  obtain ⟨value, rest, fault', settles, given⟩ := called (.called frame stack) fault rfl
  obtain ⟨advanced, control', left, fault'', ended, reached⟩ :=
    next value rest fault' settles given.leads.rest_suffix
  refine ⟨control', left, fault'', ended, ?_⟩
  exact .head (step_call moves) (Advances.advanced_of_height (Nat.lt_succ_self _)) <|
    (Advances.of_over given).trans (.head rfl advanced reached)

end Turns

end

theorem readModifiers_behind (t : Token) (rest : List Token) :
    (readModifiers (t :: rest)).2 = t :: rest ∨ (readModifiers (t :: rest)).2 <:+ rest := by
  rw [readModifiers]
  split
  · exact .inr (readModifiers_suffix rest)
  · exact .inl rfl

theorem tail_length_of_modified {t first : Token} {rest more : List Token}
    (modified : first :: more = t :: rest ∨ first :: more <:+ rest) : more.length ≤ rest.length := by
  rcases modified with same | ending
  · exact Nat.le_of_eq (congrArg List.length (List.cons.inj same).2)
  · exact Nat.le_of_succ_le ending.length_le

theorem scopeItemMove_shorter (qualifier : Option String) (found : Contents)
    (modifiers : List String) {t : Token} {rest behind : List Token}
    (brace : t.isPunctuation "\x7d" = false) (modified : behind = t :: rest ∨ behind <:+ rest) :
    (scopeItemMove qualifier found modifiers behind).rest.length ≤ rest.length := by
  cases behind with
  | nil => exact Nat.zero_le _
  | cons first more =>
    have fewer := tail_length_of_modified modified
    rw [scopeItemMove]
    split
    · exact fewer
    · rcases modified with same | ending
      · obtain ⟨rfl, rfl⟩ := List.cons.inj same
        exact skipMember_shorter more brace
      · exact Nat.le_trans (skipMember_length 0 _) ending.length_le

/-- Whatever a turn at an item goes on with, its first token is taken. -/
theorem scopeMove_shorter (braced : Bool) (qualifier : Option String) (found : Contents) (t : Token)
    (rest : List Token) :
    (scopeMove braced qualifier found (t :: rest)).rest.length ≤ rest.length := by
  rw [scopeMove]
  split
  · split
    · exact Nat.le_refl _
    · exact Nat.le_refl _
  · next brace =>
    split
    · exact skipBalanced_cons_length t rest
    · split
      · exact Nat.le_refl _
      · split
        · exact (rest_usingMove ..).length_le
        · split
          · exact (rest_namespaceMove ..).length_le
          · exact scopeItemMove_shorter qualifier found _ (eq_false_of_ne_true brace)
              (readModifiers_behind t rest)

theorem turns_scope (qualifier : Option String) (found : Contents) (stack : Stack .scope) :
    Turns ts (.run (.scope qualifier found)) ts stack depth fault := by
  cases ts with
  | nil => exact .go rfl (.leave _)
  | cons t rest =>
    have bound := scopeMove_shorter stack.isBraced qualifier found t rest
    have moves : (Task.scope qualifier found).move stack.isBraced (t :: rest) =
      scopeMove stack.isBraced qualifier found (t :: rest) := rfl
    have again {left : List Token} (fault' : Option Fault) (qualifier : Option String)
        (found : Contents) (left_length : left.length ≤ rest.length) :
        Finishes (t :: rest) (.run (.scope qualifier found)) left stack depth fault' :=
      .again (.scope qualifier found) (Nat.lt_succ_of_le left_length)
    cases taken : scopeMove stack.isBraced qualifier found (t :: rest) with
    | go control us =>
      rw [taken] at bound moves
      refine .go moves ?_
      cases control with
      | give value => exact .leave _
      | run task =>
        cases task
        exact again _ _ _ bound
      | enter construct =>
        cases construct
        exact .enter (fun _ => again _ _ _ (Nat.zero_le _)) fun value left fault' ending =>
          again _ _ _ (Nat.le_trans ending.length_le bound)
    | call frame callee us =>
      rw [taken] at bound moves
      obtain ⟨result, returns⟩ := exists_returns callee us depth
      refine .call moves returns fun value left fault' _ ending => ?_
      have left_length := Nat.le_trans ending.length_le bound
      cases frame with
      | aliasIn => exact again _ _ _ (Nat.le_trans (skipMember_length 0 left) left_length)
      | typeIn => exact again _ _ _ left_length

theorem turns_bases (found : List WrittenType) (stack : Stack .bases) :
    Turns ts (.run (.bases found)) ts stack depth fault := by
  refine .call rfl returns_type fun type? left fault' _ ending => ?_
  cases type? with
  | none => exact .leave _
  | some base =>
    have skipped := (skipParameters_suffix left).trans ending
    rw [Frame.resume]
    split
    · next comma =>
      have fewer := Nat.lt_of_lt_of_le (tail_shorter comma) skipped.length_le
      exact .again (.bases (base :: found)) fewer
    · exact .leave _

theorem turns_member {owner : Owner} {modifiers : List String} {first : Token} {more : List Token}
    (qualifier : Option String) (found : TypeBody) {stack : Stack .body}
    (brace : first.isPunctuation "\x7d" = false)
    (unlisted : startsUnlisted owner (first :: more) = false)
    (all_length : more.length < all.length)
    (moves : (Task.body qualifier owner found).move stack.isBraced ts =
      .call (.memberIn qualifier owner found modifiers) .type (first :: more)) :
    Turns all (.run (.body qualifier owner found)) ts stack depth fault := by
  refine .call moves returns_type fun type? left fault' settles _ => ?_
  -- a type that was read took tokens, and what is none is skipped, as no brace ends the body here
  have left_length :
      (readTypedMember owner modifiers type?.isSome left).2.length ≤ more.length := by
    rcases settles.cases with typed | rfl
    · exact readMember_shorter (readMember_of_typed brace unlisted typed) brace
    · exact Nat.zero_le _
  exact .again (.body ..) (Nat.lt_of_le_of_lt left_length all_length)

theorem turns_bodyItem {owner : Owner} {t : Token} {rest behind : List Token}
    (qualifier : Option String) (found : TypeBody) (modifiers : List String) (stack : Stack .body)
    (brace : t.isPunctuation "\x7d" = false) (modified : behind = t :: rest ∨ behind <:+ rest)
    (moves : (Task.body qualifier owner found).move stack.isBraced (t :: rest) =
      bodyItemMove qualifier owner found modifiers behind) :
    Turns (t :: rest) (.run (.body qualifier owner found)) (t :: rest) stack depth fault := by
  have again {left : List Token} {fault' : Option Fault} (found : TypeBody)
      (left_length : left.length ≤ rest.length) :
      Finishes (t :: rest) (.run (.body qualifier owner found)) left stack depth fault' :=
    .again (.body qualifier owner found) (Nat.lt_succ_of_le left_length)
  cases behind with
  | nil => exact .go moves (again found (Nat.zero_le _))
  | cons first more =>
    have fewer := tail_length_of_modified modified
    rw [bodyItemMove] at moves
    split at moves
    · obtain ⟨result, returns⟩ :=
        exists_returns (.declaration qualifier modifiers first.text) more depth
      exact .call moves returns fun declared left fault' _ ending =>
        again _ (Nat.le_trans ending.length_le fewer)
    · split at moves
      · next inside =>
        -- the brace stands behind modifiers, since the turn did not start with one
        have taken : (first :: more).length ≤ rest.length := by
          rcases modified with same | ending
          · rw [(List.cons.inj same).1, brace] at inside
            cases inside
          · exact ending.length_le
        exact .go moves (again found taken)
      · next inside =>
        have inside : first.isPunctuation "\x7d" = false := eq_false_of_ne_true inside
        split at moves
        · exact .go moves (again found (Nat.le_trans (skipMember_shorter more inside) fewer))
        · next unlisted =>
          exact turns_member qualifier found inside (eq_false_of_ne_true unlisted)
            (Nat.lt_succ_of_le fewer) moves

theorem turns_body (qualifier : Option String) (owner : Owner) (found : TypeBody)
    (stack : Stack .body) : Turns ts (.run (.body qualifier owner found)) ts stack depth fault := by
  cases ts with
  | nil => exact .go rfl (.leave _)
  | cons t rest =>
    have again {left : List Token} (left_length : left.length ≤ rest.length) :
        Finishes (t :: rest) (.run (.body qualifier owner found)) left stack depth fault :=
      .again (.body qualifier owner found) (Nat.lt_succ_of_le left_length)
    have moves : (Task.body qualifier owner found).move stack.isBraced (t :: rest) =
      bodyMove qualifier owner found (t :: rest) := rfl
    rw [bodyMove] at moves
    split at moves
    · exact .go moves (.leave _)
    · next brace =>
      split at moves
      · exact .go moves (again (Nat.le_refl _))
      · split at moves
        · exact .go moves (again (skipBalanced_cons_length t rest))
        · exact turns_bodyItem qualifier found _ stack (eq_false_of_ne_true brace)
            (readModifiers_behind t rest) moves

theorem finishes_separator (names : List String) (listed : List WrittenType) {stack : Stack .type}
    (bound : ts.length ≤ all.length) :
    Finishes all (.run (.separator names listed)) ts stack depth fault where
  advanced := by
    rintro task rest depth fault loop same
    cases same
    cases loop
  turns := by
    have moves : (Task.separator names listed).move stack.isBraced ts =
      separatorMove names listed ts := rfl
    unfold separatorMove at moves
    dsimp only at moves
    split at moves
    · next separator name more =>
      have fewer : more.length < all.length := by
        simp only [List.length_cons] at bound
        omega
      split at moves
      · exact .go moves (.again (.segments ..) fewer)
      · split at moves
        · exact .go moves (.again (.segments ..) fewer)
        · exact .go moves (.leave _)
    · exact .go moves (.leave _)

theorem turns_segments (names : List String) (listed : List WrittenType) (stack : Stack .type) :
    Turns ts (.run (.segments names listed)) ts stack depth fault := by
  have moves : (Task.segments names listed).move stack.isBraced ts =
    segmentsMove names listed ts := rfl
  rw [segmentsMove] at moves
  split at moves
  · exact .go moves <| .enter (fun _ => .leave _) fun read left fault' ending =>
      finishes_separator names read ending.length_le
  · exact .go moves (finishes_separator names listed (Nat.le_refl _))

theorem turns_arguments (found : List WrittenType) (stack : Stack .arguments) :
    Turns ts (.run (.arguments found)) ts stack depth fault := by
  cases ts with
  | nil => exact .go rfl (.leave _)
  | cons t rest =>
    have moves : (Task.arguments found).move stack.isBraced (t :: rest) =
      argumentsMove found (t :: rest) := rfl
    rw [argumentsMove] at moves
    split at moves
    · exact .go moves (.leave _)
    · split at moves
      · exact .go moves (.again (.arguments found) (Nat.lt_succ_self _))
      · split at moves
        · exact .go moves (.leave _)
        · refine .call moves returns_type fun type? left fault' settles ending => ?_
          cases type? with
          | none =>
            have fewer : left.tail.length < (t :: rest).length := by
              have := ending.length_le
              simp only [List.length_tail, List.length_cons] at this ⊢
              omega
            exact .again (.arguments found) fewer
          | some argument =>
            refine .again (.arguments (argument :: found)) ?_
            rcases settles.cases with typed | rfl
            · exact typeOf_shorter typed
            · exact Nat.succ_pos _

theorem turns_of_loop {task : Task p} (loop : Loop task) (stack : Stack p) (ts : List Token)
    (depth : Nat) (fault : Option Fault) : Turns ts (.run task) ts stack depth fault := by
  cases loop with
  | scope qualifier found => exact turns_scope qualifier found stack
  | bases found => exact turns_bases found stack
  | body qualifier owner found => exact turns_body qualifier owner found stack
  | segments names listed => exact turns_segments names listed stack
  | arguments found => exact turns_arguments found stack

/-- Until it is left, a loop comes to its head again only with fewer tokens. -/
def Shortens (task : Task p) : Prop :=
  ∀ (task' : Task p) (stack : Stack p) (ts us : List Token) (depth depth' : Nat)
    (fault fault' : Option Fault), Loop task' →
      Relation.TransGen (StepOver stack.height) ⟨p, .run task, stack, ts, depth, fault⟩
        ⟨p, .run task', stack, us, depth', fault'⟩ → us.length < ts.length

theorem shortens_of_loop {task : Task p} (loop : Loop task) : Shortens task := by
  intro task' stack ts us depth depth' fault fault' loop' reached
  obtain ⟨control, rest, last, ended, advances⟩ := turns_of_loop loop stack ts depth fault
  obtain advanced | behind := advances.advanced_or_behind reached
  · exact advanced _ _ _ _ loop' rfl
  · cases ended with
    | again _ fewer =>
      have above : LeadsOver stack.height _ _ := behind.to_reflTransGen
      exact Nat.lt_of_le_of_lt above.leads.rest_suffix.length_le fewer
    | leave value =>
      -- what gives to the stack goes on below it
      obtain ⟨next, ⟨taken, above⟩, -⟩ := Relation.TransGen.head'_iff.1 behind
      cases stack with
      | file => cases taken
      | called frame outer =>
        cases taken
        exact absurd above (Nat.not_succ_le_self _)
      | entered construct outer =>
        cases taken
        exact absurd above (Nat.not_succ_le_self _)

def finished (found : Contents) (fault : Option Fault) : State :=
  ⟨.scope, .give found, .file, [], 0, fault⟩

theorem leads_finished (path : Path) (ts : List Token) : ∃ found fault,
    Leads (start ts) (finished found fault) ∧
    readFile path ts = match fault with
      | some tooDeep => .error tooDeep
      | none => .ok ⟨path, Text.dropRepeats found.imports.reverse, found.aliases.reverse,
          found.types.reverse⟩ := by
  have returns : Returns false (.run (.scope none .empty)) ts 0 _ := returns_scope none .empty
  obtain ⟨found, rest, fault, settles, given⟩ := returns .file none rfl
  have sound : Sound ts _ := (sound_start ts).leads given.leads
  obtain rfl : rest = [] := sound.ended found rest 0 fault rfl
  refine ⟨found, fault, given.leads, ?_⟩
  rw [readFile_eq]
  change Settles none (namespaceOf 0 none false .empty ts) found [] fault at settles
  generalize namespaceOf 0 none false .empty ts = result at settles
  cases settles with
  | ok => rfl
  | error tooDeep => rfl

/-- The run records a fault exactly if it comes to the opening of a construct at full depth. -/
theorem fault_iff_enters {found : Contents} {fault : Option Fault}
    (leads : Leads (start ts) (finished found fault)) :
    fault.isSome ↔ ∃ s, Leads (start ts) s ∧ s.Enters ∧ s.depth = maxNesting := by
  constructor
  · intro faulty
    obtain ⟨s, reached, enters, full⟩ := leads.exists_enters rfl faulty
    have sound := (sound_start ts).leads reached
    exact ⟨s, reached, enters, Nat.le_antisymm sound.bounded full⟩
  · rintro ⟨s, reached, enters, full⟩
    rcases Relation.ReflTransGen.cases_head (leads.to_end rfl reached) with
      rfl | ⟨next, taken, further⟩
    · obtain ⟨p, construct, control⟩ := enters
      cases control
    · have faulty := (turn_of_step taken).fault_of_enters enters (Nat.le_of_eq full.symm)
      exact Leads.keeps_fault further faulty

/-- Whatever the tokens, a file is read to its last token. The run comes back to depth zero, on the
way the depth is what has been entered and never more than the limit, and a fault is recorded exactly
if a construct is to be entered at the limit. Every loop is left or goes on with fewer tokens. -/
theorem reading_ends (path : Path) (ts : List Token) :
    (∃ found fault,
      (Leads (start ts) (finished found fault) ∧ step (finished found fault) = none) ∧
      (∀ s, Leads (start ts) s → Leads s (finished found fault) ∧ s.rest <:+ ts ∧
        s.depth = s.stack.level ∧ s.depth ≤ maxNesting) ∧
      (fault.isSome ↔ ∃ s, Leads (start ts) s ∧ s.Enters ∧ s.depth = maxNesting) ∧
      readFile path ts = match fault with
        | some tooDeep => .error tooDeep
        | none => .ok ⟨path, Text.dropRepeats found.imports.reverse, found.aliases.reverse,
            found.types.reverse⟩) ∧
    (∀ (p : Part) (task : Task p), Loop task → Shortens task) ∧ RunByTurns := by
  refine ⟨?_, fun _ _ => shortens_of_loop, runByTurns⟩
  obtain ⟨found, fault, leads, read⟩ := leads_finished path ts
  refine ⟨found, fault, ⟨leads, rfl⟩, fun s reached => ?_, fault_iff_enters leads, read⟩
  have sound := (sound_start ts).leads reached
  exact ⟨leads.to_end rfl reached, sound.rest, sound.depth, sound.bounded⟩

end ConventionLint.Source.Machine
