import ConventionLint.Proofs.Source.Brackets
import ConventionLint.Proofs.Source.ReadingMachine

/-!
# What the machine reads

From any part and under any stack the machine comes to give a value to that stack, the depth as
before. It gives what the reader reads and leaves what the reader leaves; where the reader finds a
fault, the machine has recorded it and no tokens are left.
-/
namespace ConventionLint.Source.Machine

variable {p q : Part} {braced : Bool} {task : Task p} {control : Control p} {callee : Task q}
  {frame : Frame q p} {construct : Construct q p} {ts us : List Token} {depth : Nat}

/-! ## Returning -/

/-- The value, tokens and fault that a result of a reader comes to. -/
inductive Settles {α : Type} (fault : Option Fault) :
    Except Fault (α × List Token) → α → List Token → Option Fault → Prop where
  | ok (value : α) (rest : List Token) : Settles fault (.ok (value, rest)) value rest fault
  | error (tooDeep : Fault) (value : α) :
    Settles fault (.error tooDeep) value [] (fault.or (some tooDeep))

/-- The machine comes from a control to give what a reader makes of the tokens, and leaves the stack
as it is until then. -/
def Returns (braced : Bool) (control : Control p) (ts : List Token) (depth : Nat)
    (result : Except Fault (p.Value × List Token)) : Prop :=
  ∀ (stack : Stack p) (fault : Option Fault), stack.isBraced = braced →
    ∃ value rest fault', Settles fault result value rest fault' ∧
      LeadsOver stack.height ⟨p, control, stack, ts, depth, fault⟩
        ⟨p, .give value, stack, rest, depth, fault'⟩

/-- Where no tokens are left the machine comes to give a value, and nothing else changes. -/
def Abandons (control : Control p) : Prop :=
  ∀ (stack : Stack p) (depth : Nat) (fault : Option Fault), ∃ value,
    LeadsOver stack.height ⟨p, control, stack, [], depth, fault⟩
      ⟨p, .give value, stack, [], depth, fault⟩

section

variable {fault : Option Fault} {stack : Stack p}

theorem step_go (moves : task.move stack.isBraced ts = .go control us) :
    step ⟨p, .run task, stack, ts, depth, fault⟩ = some ⟨p, control, stack, us, depth, fault⟩ := by
  rw [step, moves]

theorem step_call (moves : task.move stack.isBraced ts = .call frame callee us) :
    step ⟨p, .run task, stack, ts, depth, fault⟩
      = some ⟨q, .run callee, .called frame stack, us, depth, fault⟩ := by
  rw [step, moves]

/-- There is room for a construct, or the rest of the file is abandoned. -/
theorem step_enter (construct : Construct q p) (stack : Stack p) (ts : List Token) (depth : Nat)
    (fault : Option Fault) :
    (Source.enter depth ts = .ok (depth + 1) ∧
      step ⟨p, .enter construct, stack, ts, depth, fault⟩ = some ⟨q, .run construct.task,
        .entered construct stack, construct.opened ts, depth + 1, fault⟩) ∨
    ∃ tooDeep, Source.enter depth ts = .error tooDeep ∧
      step ⟨p, .enter construct, stack, ts, depth, fault⟩ =
        some ⟨p, construct.refused, stack, [], depth, fault.or (some tooDeep)⟩ := by
  cases room : Source.enter depth ts with
  | error tooDeep => exact .inr ⟨tooDeep, rfl, by rw [step, room]⟩
  | ok level =>
    obtain rfl : level = depth + 1 := by
      rw [Source.enter.eq_def] at room
      split at room
      · cases ts <;> cases room
      · exact (Except.ok.inj room).symm
    exact .inl ⟨rfl, by rw [step, room]⟩

theorem leads_resume (frame : Frame q p) (value : q.Value) :
    LeadsOver stack.height ⟨q, .give value, .called frame stack, ts, depth, fault⟩
      ⟨p, (frame.resume ts value).1, stack, (frame.resume ts value).2, depth, fault⟩ :=
  .head rfl (Nat.le_refl _) (.refl _)

theorem leads_leave (construct : Construct q p) (value : q.Value) :
    LeadsOver stack.height ⟨q, .give value, .entered construct stack, ts, depth + 1, fault⟩
      ⟨p, (construct.resume ts value).1, stack, (construct.resume ts value).2, depth, fault⟩ :=
  .head rfl (Nat.le_refl _) (.refl _)

end

/-! ## Without tokens -/

theorem abandons_give (value : p.Value) : Abandons (.give value) :=
  fun _ _ _ => ⟨value, .refl _⟩

theorem abandons_go (moves : ∀ braced, task.move braced [] = .go control us)
    (further : Abandons control) : Abandons (.run task) := by
  intro stack depth fault
  have none_left : us = [] := by
    have bound := rest_move true task []
    rw [moves] at bound
    exact List.eq_nil_of_suffix_nil bound
  obtain ⟨value, given⟩ := further stack depth fault
  exact ⟨value, .head (step_go (moves _)) (Nat.le_refl _) (none_left ▸ given)⟩

theorem abandons_task (task : Task p) : Abandons (.run task) := by
  cases task with
  | declaration qualifier modifiers keyword =>
    have kinded := declarationKind_suffix keyword []
    have moves : declarationMove qualifier modifiers keyword []
        = .go (.give none) (skipMember 0 []) := by
      rw [declarationMove]
      split
      · next shape =>
        rw [shape] at kinded
        cases List.eq_nil_of_suffix_nil kinded
      · next rest _ shape =>
        rw [shape] at kinded
        obtain rfl : rest = [] := List.eq_nil_of_suffix_nil kinded
        rfl
    exact abandons_go (fun _ => moves) (abandons_give _)
  | bases found =>
    intro stack depth fault
    exact ⟨found.reverse, .head (step_call rfl) (Nat.le_succ _) <|
      .head (step_go rfl) (Nat.le_succ _) <| .head rfl (Nat.le_refl _) (.refl _)⟩
  | segments names listed =>
    refine abandons_go (fun _ => rfl) ?_
    exact abandons_go (fun _ => rfl) (abandons_give _)
  | _ => exact abandons_go (fun _ => rfl) (abandons_give _)

theorem abandons_resume_frame (frame : Frame p q) (value : p.Value) :
    Abandons (frame.resume [] value).1 := by
  cases frame with
  | baseIn found =>
    cases value with
    | none => exact abandons_give _
    | some base =>
      rw [Frame.resume]
      split
      · exact abandons_task _
      · exact abandons_give _
  | argumentIn found =>
    cases value with
    | none => exact abandons_task _
    | some argument => exact abandons_task _
  | _ => exact abandons_task _

theorem abandons_resume_construct (construct : Construct p q) (value : p.Value) :
    Abandons (construct.resume [] value).1 := by
  cases construct with
  | typeBody => exact abandons_give _
  | _ => exact abandons_task _

theorem abandons_refused (construct : Construct p q) : Abandons construct.refused := by
  cases construct with
  | namespaceBody => exact abandons_task _
  | _ => exact abandons_give _

/-! ## Composition -/

namespace Returns

variable {result : Except Fault (p.Value × List Token)}
  {inner : Except Fault (q.Value × List Token)}
  {further : q.Value × List Token → Except Fault (p.Value × List Token)}

theorem give (value : p.Value) (rest : List Token) :
    Returns braced (.give value) rest depth (.ok (value, rest)) :=
  fun _ fault _ => ⟨value, rest, fault, .ok value rest, .refl _⟩

theorem go (moves : task.move braced ts = .go control us)
    (next : Returns braced control us depth result) :
    Returns braced (.run task) ts depth result := by
  rintro stack fault rfl
  obtain ⟨value, rest, fault', settles, given⟩ := next stack fault rfl
  exact ⟨value, rest, fault', settles, .head (step_go moves) (Nat.le_refl _) given⟩

theorem call (moves : task.move braced ts = .call frame callee us)
    (called : Returns true (.run callee) us depth inner)
    (next : ∀ value rest, inner = .ok (value, rest) → Returns braced (frame.resume rest value).1
      (frame.resume rest value).2 depth (further (value, rest))) :
    Returns braced (.run task) ts depth (inner >>= further) := by
  rintro stack fault rfl
  obtain ⟨value, rest, fault', settles, given⟩ := called (.called frame stack) fault rfl
  have reached := (given.mono (Nat.le_succ _)).trans (leads_resume frame value)
  cases settles with
  | ok =>
    obtain ⟨last, left, fault'', settles, ended⟩ := next value rest rfl stack fault rfl
    exact ⟨last, left, fault'', settles,
      .head (step_call moves) (Nat.le_succ _) (reached.trans ended)⟩
  | error tooDeep =>
    have none_left : (frame.resume [] value).2 = [] :=
      List.eq_nil_of_suffix_nil (rest_resume_frame frame value [])
    obtain ⟨last, ended⟩ := abandons_resume_frame frame value stack depth (fault.or (some tooDeep))
    rw [none_left] at reached
    exact ⟨last, [], _, .error tooDeep last,
      .head (step_call moves) (Nat.le_succ _) (reached.trans ended)⟩

theorem enter {inside : Nat → Except Fault (q.Value × List Token)}
    (entered : Returns true (.run construct.task) (construct.opened ts) (depth + 1)
      (inside (depth + 1)))
    (next : ∀ value rest, inside (depth + 1) = .ok (value, rest) →
      Returns braced (construct.resume rest value).1 (construct.resume rest value).2 depth
        (further (value, rest))) :
    Returns braced (.enter construct) ts depth
      (Source.enter depth ts >>= fun level => inside level >>= further) := by
  rintro stack fault rfl
  obtain ⟨room, opens⟩ | ⟨tooDeep, full, refuses⟩ := step_enter construct stack ts depth fault
  · obtain ⟨value, rest, fault', settles, given⟩ := entered (.entered construct stack) fault rfl
    have reached := (given.mono (Nat.le_succ _)).trans (leads_leave construct value)
    rw [room]
    change ∃ last left fault', Settles fault (inside (depth + 1) >>= further) last left fault' ∧ _
    generalize inside (depth + 1) = found at settles next ⊢
    cases settles with
    | ok =>
      obtain ⟨last, left, fault'', settles, ended⟩ := next value rest rfl stack fault rfl
      exact ⟨last, left, fault'', settles,
        .head opens (Nat.le_succ _) (reached.trans ended)⟩
    | error tooDeep =>
      have none_left : (construct.resume [] value).2 = [] :=
        List.eq_nil_of_suffix_nil (rest_resume_construct construct value [])
      obtain ⟨last, ended⟩ :=
        abandons_resume_construct construct value stack depth (fault.or (some tooDeep))
      rw [none_left] at reached
      exact ⟨last, [], _, .error tooDeep last,
        .head opens (Nat.le_succ _) (reached.trans ended)⟩
  · obtain ⟨last, ended⟩ := abandons_refused construct stack depth (fault.or (some tooDeep))
    rw [full]
    exact ⟨last, [], _, .error tooDeep last, .head refuses (Nat.le_refl _) ended⟩

end Returns

/-! ## Types -/

/-- What is read behind a segment and its arguments. -/
def separatorOf (depth : Nat) (names : List String) (listed : List WrittenType) (ts : List Token) :
    Except Fault (WrittenType × List Token) :=
  match ts with
  | separator :: name :: more =>
    if separator.isPunctuation "::" && name.isIdentifier then
      segmentsOf depth [name.text] listed more
    else if separator.isPunctuation "." && name.isIdentifier then
      segmentsOf depth (name.text :: names) [] more
    else .ok (writtenType names listed, skipSuffixes ts)
  | _ => .ok (writtenType names listed, skipSuffixes ts)

/-- A dotted type is a type. -/
def asType (result : Except Fault (WrittenType × List Token)) :
    Except Fault (Option WrittenType × List Token) := do
  let (type, rest) ← result
  return (some type, rest)

theorem asType_segmentsOf (depth : Nat) (names : List String) (listed : List WrittenType)
    (ts : List Token) : asType (segmentsOf depth names listed ts) =
      argumentListOf depth listed ts >>= fun found =>
        asType (separatorOf depth names found.1 found.2) := by
  rw [segmentsOf_eq]
  cases argumentListOf depth listed ts <;> rfl

/-- For at most `n` tokens the machine reads types as the readers do. -/
structure ReadsTypes (n : Nat) : Prop where
  type {depth : Nat} {ts : List Token} :
    ts.length ≤ n → Returns true (.run .type) ts depth (typeOf depth ts)
  segments {depth : Nat} {names : List String} {listed : List WrittenType} {ts : List Token} :
    ts.length ≤ n → Returns true (.run (.segments names listed)) ts depth
      (asType (segmentsOf depth names listed ts))
  arguments {depth : Nat} {found : List WrittenType} {ts : List Token} :
    ts.length ≤ n → Returns true (.run (.arguments found)) ts depth (argumentsOf depth found ts)

section

variable {n : Nat} (shorter : ∀ m < n, ReadsTypes m) (bound : ts.length ≤ n)
include shorter bound

theorem returns_type_of_shorter : Returns true (.run .type) ts depth (typeOf depth ts) := by
  rw [typeOf_eq]
  split
  · next tuple => exact .go (if_pos tuple) (.give _ _)
  · next tuple =>
    have moves : (Task.type).move true ts = _ := if_neg tuple
    split
    · next named =>
      rw [named] at moves
      exact .go moves (.give _ _)
    · next t rest named =>
      rw [named] at moves
      have fewer : rest.length < ts.length := skipGlobal_shorter named
      split
      · next word =>
        exact .go (moves.trans (if_pos word))
          ((shorter rest.length (by omega)).segments (Nat.le_refl _))
      · next word => exact .go (moves.trans (if_neg word)) (.give _ _)

theorem returns_separator_of_shorter (names : List String) (listed : List WrittenType) :
    Returns true (.run (.separator names listed)) ts depth
      (asType (separatorOf depth names listed ts)) := by
  unfold separatorOf
  split
  · next separator name more =>
    have fewer : more.length < n := by
      simp only [List.length_cons] at bound
      omega
    split
    · next colons => exact .go (if_pos colons) ((shorter _ fewer).segments (Nat.le_refl _))
    · next colons =>
      have moves : (Task.separator names listed).move true (separator :: name :: more) = _ :=
        if_neg colons
      split
      · next dotted =>
        exact .go (moves.trans (if_pos dotted)) ((shorter _ fewer).segments (Nat.le_refl _))
      · next dotted => exact .go (moves.trans (if_neg dotted)) (.give _ _)
  · next other =>
    refine .go ?_ (.give _ _)
    change separatorMove names listed ts = _
    unfold separatorMove
    split
    · exact absurd rfl (other _ _ _)
    · rfl

theorem returns_segments_of_shorter (names : List String) (listed : List WrittenType) :
    Returns true (.run (.segments names listed)) ts depth
      (asType (segmentsOf depth names listed ts)) := by
  rw [asType_segmentsOf, argumentListOf]
  split
  · next opened =>
    have fewer : ts.tail.length < n := Nat.lt_of_lt_of_le (tail_shorter opened) bound
    refine .go (if_pos opened) ?_
    rw [bind_assoc]
    refine .enter ((shorter _ fewer).arguments (Nat.le_refl _)) fun listed rest read => ?_
    have behind : rest <:+ ts.tail := (leavesEnd _).arguments (Nat.le_refl _) read
    have rest_length : rest.length ≤ n :=
      Nat.le_of_lt (Nat.lt_of_le_of_lt behind.length_le fewer)
    exact returns_separator_of_shorter shorter rest_length names listed
  · next opened =>
    refine .go (if_neg opened) ?_
    exact returns_separator_of_shorter shorter bound names listed

theorem returns_arguments_of_shorter (found : List WrittenType) :
    Returns true (.run (.arguments found)) ts depth (argumentsOf depth found ts) := by
  cases ts with
  | nil =>
    rw [argumentsOf_nil]
    exact .go rfl (.give _ _)
  | cons t rest =>
    have fewer {left : List Token} (left_length : left.length ≤ rest.length) :
        left.length < n := Nat.lt_of_le_of_lt left_length bound
    rw [argumentsOf_cons]
    split
    · next angle => exact .go (if_pos angle) (.give _ _)
    · next angle =>
      have moves : (Task.arguments found).move true (t :: rest) = _ := if_neg angle
      split
      · next comma =>
        exact .go (moves.trans (if_pos comma))
          ((shorter _ (fewer (Nat.le_refl _))).arguments (Nat.le_refl _))
      · next comma =>
        split
        · next cut => exact .go (moves.trans ((if_neg comma).trans (if_pos cut))) (.give _ _)
        · next cut =>
          refine .call (moves.trans ((if_neg comma).trans (if_neg cut)))
            (returns_type_of_shorter shorter bound) fun type? left typed => ?_
          cases type? with
          | some argument =>
            have left_length : left.length ≤ rest.length := Nat.le_of_lt_succ (typeOf_shorter typed)
            exact (shorter _ (fewer left_length)).arguments (Nat.le_refl _)
          | none =>
            have left_length : left.tail.length ≤ rest.length := by
              have := (typeOf_suffix typed).length_le
              simp only [List.length_tail, List.length_cons] at this ⊢
              omega
            exact (shorter _ (fewer left_length)).arguments (Nat.le_refl _)

end

theorem readsTypes (n : Nat) : ReadsTypes n := by
  induction n using Nat.strongRecOn with
  | ind n shorter =>
    exact ⟨fun bound => returns_type_of_shorter shorter bound,
      fun bound => returns_segments_of_shorter shorter bound _ _,
      fun bound => returns_arguments_of_shorter shorter bound _⟩

theorem returns_type : Returns true (.run .type) ts depth (typeOf depth ts) :=
  (readsTypes ts.length).type (Nat.le_refl _)

/-! ## Declarations -/

theorem returns_bases (found : List WrittenType) :
    Returns true (.run (.bases found)) ts depth (basesOf depth found ts) := by
  induction bound : ts.length using Nat.strongRecOn generalizing ts found with
  | ind n ih =>
    rw [basesOf_eq]
    refine .call rfl returns_type fun type? left typed => ?_
    cases type? with
    | none => exact .give _ _
    | some base =>
      have fewer : (skipParameters left).tail.length < n := by
        have := (skipParameters_suffix left).length_le
        have := typeOf_shorter typed
        simp only [List.length_tail]
        omega
      dsimp only
      rw [Frame.resume]
      split
      · exact ih _ fewer _ rfl
      · exact .give _ _

theorem not_startsDeclaration_of_brace {t : Token} (rest : List Token)
    (brace : t.isPunctuation "\x7d" = true) : ¬startsDeclaration (t :: rest) = true := by
  intro declares
  have word : t.isIdentifier = true := (Bool.and_eq_true_iff.1 declares).1
  rw [Token.isPunctuation_of_isIdentifier word] at brace
  cases brace

/-- What is read behind the head of a declaration. -/
def headedOf (depth : Nat) (qualifier : Option String) (modifiers : List String) (header : Header)
    (ts : List Token) : Except Fault (Option TypeDeclaration × List Token) :=
  if startsWith "\x7b" ts then do
    let inner ← enter depth ts.tail
    let (body, rest) ← bodyOf inner qualifier ⟨header.name.text, header.kind⟩ .empty ts.tail
    return (some (header.declare qualifier modifiers body), skipOne ";" rest)
  else return (some (header.declare qualifier modifiers .empty), skipOne ";" ts)

section

variable {qualifier : Option String} {modifiers : List String} {keyword : String}
  {kind : DeclarationKind} {name : Token} {rest : List Token}

theorem declarationOf_headed (kinded : declarationKind keyword ts = (some kind, name :: rest))
    (word : name.isIdentifier = true) : declarationOf depth qualifier modifiers keyword ts =
      baseListOf depth (skipParameters (readTypeParameterList rest).2) >>= fun found =>
        headedOf depth qualifier modifiers ⟨name, kind, (readTypeParameterList rest).1, found.1⟩
          (found.2.dropWhile (!endsHead ·)) := by
  rw [declarationOf_eq, headerOf_eq, kinded]
  dsimp only
  rw [if_pos word]
  cases baseListOf depth (skipParameters (readTypeParameterList rest).2) <;> rfl

theorem declarationOf_headless (header : headerOf depth keyword ts = .ok (none, rest)) :
    declarationOf depth qualifier modifiers keyword ts = .ok (none, rest) := by
  rw [declarationOf_eq, header]
  rfl

end

theorem readMember_of_typed {owner : Owner} {modifiers : List String} {first : Token}
    {more left : List Token} {type? : Option WrittenType}
    (inside : first.isPunctuation "\x7d" = false)
    (unlisted : startsUnlisted owner (first :: more) = false)
    (typed : typeOf depth (first :: more) = .ok (type?, left)) :
    readMember owner depth modifiers (first :: more) =
      .ok (readTypedMember owner modifiers type?.isSome left) := by
  have started : ((first :: more).isEmpty || startsWith "\x7d" (first :: more)) = false := by
    simpa [startsWith] using inside
  rw [readMember_eq, started, unlisted, typed]
  rfl

/-- For at most `n` tokens the machine reads declarations and bodies as the readers do. -/
structure ReadsBodies (n : Nat) : Prop where
  declaration {depth : Nat} {qualifier : Option String} {modifiers : List String}
    {keyword : String} {ts : List Token} :
    ts.length ≤ n → Returns true (.run (.declaration qualifier modifiers keyword)) ts depth
      (declarationOf depth qualifier modifiers keyword ts)
  body {depth : Nat} {qualifier : Option String} {owner : Owner} {found : TypeBody}
    {ts : List Token} :
    ts.length ≤ n → Returns true (.run (.body qualifier owner found)) ts depth
      (bodyOf depth qualifier owner found ts)

section

variable {n : Nat} (shorter : ∀ m < n, ReadsBodies m)
include shorter

theorem returns_headed_of_shorter (bound : ts.length ≤ n) (qualifier : Option String)
    (modifiers : List String) (header : Header) :
    Returns true (.run (.headed qualifier modifiers header)) ts depth
      (headedOf depth qualifier modifiers header (ts.dropWhile (!endsHead ·))) := by
  have ended : ts.dropWhile (!endsHead ·) <:+ ts := List.dropWhile_suffix _
  rw [headedOf]
  split
  · next opened =>
    have fewer : (ts.dropWhile (!endsHead ·)).tail.length < n :=
      Nat.lt_of_lt_of_le (tail_shorter opened) (Nat.le_trans ended.length_le bound)
    refine .go (if_pos opened) ?_
    refine .enter ((shorter _ fewer).body (Nat.le_refl _)) fun body rest _ => ?_
    exact .give _ _
  · next opened => exact .go (if_neg opened) (.give _ _)

theorem returns_declaration_of_shorter (bound : ts.length ≤ n) (qualifier : Option String)
    (modifiers : List String) (keyword : String) :
    Returns true (.run (.declaration qualifier modifiers keyword)) ts depth
      (declarationOf depth qualifier modifiers keyword ts) := by
  have left_suffix := declarationKind_suffix keyword ts
  rcases kinded : declarationKind keyword ts with ⟨_ | kind, _ | ⟨name, rest⟩⟩
  all_goals rw [kinded] at left_suffix
  case some.cons =>
    by_cases word : name.isIdentifier
    · rw [declarationOf_headed kinded word, baseListOf]
      have moves : (Task.declaration qualifier modifiers keyword).move true ts =
          basesMove qualifier modifiers name kind (readTypeParameterList rest).1
            (skipParameters (readTypeParameterList rest).2) := by
        rw [Task.move, declarationMove, kinded]
        exact if_pos word
      have behind : skipParameters (readTypeParameterList rest).2 <:+ ts :=
        (skipParameters_suffix _).trans <| (readTypeParameterList_suffix rest).trans <|
          (List.suffix_cons name rest).trans left_suffix
      split
      · next colon =>
        refine .call (moves.trans (if_pos colon)) (returns_bases []) fun bases left listed => ?_
        have left_suffix : left <:+ ts :=
          (basesOf_suffix listed).trans ((List.tail_suffix _).trans behind)
        exact returns_headed_of_shorter shorter (Nat.le_trans left_suffix.length_le bound) _ _ _
      · next colon =>
        refine .go (moves.trans (if_neg colon)) ?_
        exact returns_headed_of_shorter shorter (Nat.le_trans behind.length_le bound) _ _ _
    · have header : headerOf depth keyword ts = .ok (none, skipMember 0 (name :: rest)) := by
        rw [headerOf_eq, kinded]
        exact if_neg word
      rw [declarationOf_headless header]
      refine .go ?_ (.give _ _)
      rw [Task.move, declarationMove, kinded]
      exact if_neg word
  case none.nil | none.cons | some.nil =>
    rw [declarationOf_headless (headerOf_eq.trans (by rw [kinded]))]
    refine .go ?_ (.give _ _)
    rw [Task.move, declarationMove, kinded]

theorem returns_bodyItem_of_shorter {qualifier : Option String} {owner : Owner} {found : TypeBody}
    {modifiers : List String} {behind : List Token} (bound : behind.length ≤ n)
    (moves : (Task.body qualifier owner found).move true ts =
      bodyItemMove qualifier owner found modifiers behind) :
    Returns true (.run (.body qualifier owner found)) ts depth
      (bodyItemOf depth qualifier owner found modifiers behind) := by
  cases behind with
  | nil => exact .go moves (.go rfl (.give _ _))
  | cons first more =>
    have again (found : TypeBody) {left : List Token} (left_length : left.length ≤ more.length) :
        Returns true (.run (.body qualifier owner found)) left depth
          (bodyOf depth qualifier owner found left) :=
      (shorter _ (Nat.lt_of_le_of_lt left_length bound)).body (Nat.le_refl _)
    rw [bodyItemOf]
    split
    · next brace =>
      have undeclared := not_startsDeclaration_of_brace more brace
      exact .go (moves.trans ((if_neg undeclared).trans (if_pos brace)))
        (.go (if_pos brace) (.give _ _))
    · next brace =>
      split
      · next declares =>
        refine .call (moves.trans (if_pos declares))
          ((shorter _ bound).declaration (Nat.le_refl _)) fun declared left read => ?_
        have left_length : left.length ≤ more.length := length_of_plain read
        exact again _ left_length
      · next declares =>
        have moves := moves.trans ((if_neg declares).trans (if_neg brace))
        have inside : first.isPunctuation "\x7d" = false := eq_false_of_ne_true brace
        have started : ((first :: more).isEmpty || startsWith "\x7d" (first :: more)) = false := by
          simpa [startsWith] using inside
        rw [readMember_eq, started]
        simp only [Bool.false_eq_true, ↓reduceIte]
        split
        · next unlisted =>
          exact .go (moves.trans (if_pos unlisted)) (again found (skipMember_shorter more inside))
        · next unlisted =>
          rw [bind_assoc]
          refine .call (moves.trans (if_neg unlisted)) returns_type fun type? left typed => ?_
          exact again _ (readMember_shorter
            (readMember_of_typed inside (eq_false_of_ne_true unlisted) typed) inside)

theorem returns_body_of_shorter (bound : ts.length ≤ n) (qualifier : Option String) (owner : Owner)
    (found : TypeBody) : Returns true (.run (.body qualifier owner found)) ts depth
      (bodyOf depth qualifier owner found ts) := by
  cases ts with
  | nil =>
    rw [bodyOf_nil]
    exact .go rfl (.give _ _)
  | cons t rest =>
    have again {left : List Token} (left_length : left.length ≤ rest.length) :
        Returns true (.run (.body qualifier owner found)) left depth
          (bodyOf depth qualifier owner found left) :=
      (shorter _ (Nat.lt_of_le_of_lt left_length bound)).body (Nat.le_refl _)
    rw [bodyOf_cons]
    split
    · next brace => exact .go (if_pos brace) (.give _ _)
    · next brace =>
      have moves : (Task.body qualifier owner found).move true (t :: rest) = _ := if_neg brace
      split
      · next semicolon => exact .go (moves.trans (if_pos semicolon)) (again (Nat.le_refl _))
      · next semicolon =>
        have moves := moves.trans (if_neg semicolon)
        split
        · next bracket =>
          exact .go (moves.trans (if_pos bracket)) (again (skipBalanced_cons_length t rest))
        · next bracket =>
          exact returns_bodyItem_of_shorter shorter
            (Nat.le_trans (readModifiers_length _) bound) (moves.trans (if_neg bracket))

end

theorem readsBodies (n : Nat) : ReadsBodies n := by
  induction n using Nat.strongRecOn with
  | ind n shorter =>
    exact ⟨fun bound => returns_declaration_of_shorter shorter bound _ _ _,
      fun bound => returns_body_of_shorter shorter bound _ _ _⟩

theorem returns_declaration (qualifier : Option String) (modifiers : List String)
    (keyword : String) : Returns true (.run (.declaration qualifier modifiers keyword)) ts depth
      (declarationOf depth qualifier modifiers keyword ts) :=
  (readsBodies ts.length).declaration (Nat.le_refl _)

/-! ## Namespaces and files -/

/-- For at most `n` tokens the machine reads namespaces as the reader does. -/
def ReadsScopes (n : Nat) : Prop :=
  ∀ {braced : Bool} {depth : Nat} {qualifier : Option String} {found : Contents} {ts : List Token},
    ts.length ≤ n → Returns braced (.run (.scope qualifier found)) ts depth
      (namespaceOf depth qualifier braced found ts)

section

variable {n : Nat} {qualifier : Option String} {found : Contents} {behind : List Token}
  (shorter : ∀ m < n, ReadsScopes m)
include shorter

theorem returns_again (fewer : behind.length < n) (braced : Bool) (qualifier : Option String)
    (found : Contents) : Returns braced (.run (.scope qualifier found)) behind depth
      (namespaceOf depth qualifier braced found behind) :=
  shorter _ fewer (Nat.le_refl _)

theorem returns_using_of_shorter (fewer : behind.length < n)
    (moves : (Task.scope qualifier found).move braced ts = usingMove qualifier found behind) :
    Returns braced (.run (.scope qualifier found)) ts depth
      (usingOf depth found behind >>= fun read =>
        namespaceOf depth qualifier braced read.1 read.2) := by
  rw [usingOf_eq]
  cases aliased : aliasBehind behind with
  | some introduced =>
    obtain ⟨name, rest⟩ := introduced
    have moves : (Task.scope qualifier found).move braced ts =
        .call (.aliasIn qualifier found name) .type rest := by
      rw [moves, usingMove, aliased]
    dsimp only
    rw [bind_assoc]
    refine .call moves returns_type fun type? left typed => ?_
    have left_suffix : skipMember 0 left <:+ behind :=
      (skipMember_suffix 0 left).trans ((typeOf_suffix typed).trans (aliasBehind_suffix aliased))
    exact returns_again shorter (Nat.lt_of_le_of_lt left_suffix.length_le fewer) _ _ _
  | none =>
    have moves : (Task.scope qualifier found).move braced ts =
        if startsImport behind then
          .go (.run (.scope qualifier (found.addImport (readDottedName behind).1)))
            (skipOne ";" (readDottedName behind).2)
        else .go (.run (.scope qualifier found)) (skipMember 0 behind) := by
      rw [moves, usingMove, aliased]
    dsimp only
    split
    · next imports =>
      have left_suffix : skipOne ";" (readDottedName behind).2 <:+ behind :=
        (skipOne_suffix _ _).trans (readDottedName_suffix behind)
      exact .go (moves.trans (if_pos imports))
        (returns_again shorter (Nat.lt_of_le_of_lt left_suffix.length_le fewer) _ _ _)
    · next imports =>
      exact .go (moves.trans (if_neg imports)) <| returns_again shorter
        (Nat.lt_of_le_of_lt (skipMember_suffix 0 behind).length_le fewer) _ _ _

theorem returns_namespace_of_shorter (fewer : behind.length < n)
    (moves : (Task.scope qualifier found).move braced ts = namespaceMove qualifier found behind) :
    Returns braced (.run (.scope qualifier found)) ts depth
      (namespaceBehind depth qualifier braced found behind) := by
  have dotted := readDottedName_suffix behind
  rw [namespaceMove] at moves
  rw [namespaceBehind]
  generalize readDottedName behind = read at dotted moves ⊢
  obtain ⟨name, left⟩ := read
  have left_fewer {us : List Token} (ending : us <:+ left) : us.length < n :=
    Nat.lt_of_le_of_lt (ending.trans dotted).length_le fewer
  dsimp only at moves ⊢
  split
  · next semicolon =>
    exact .go (moves.trans (if_pos semicolon))
      (returns_again shorter (left_fewer (List.tail_suffix left)) _ _ _)
  · next semicolon =>
    have moves := moves.trans (if_neg semicolon)
    split
    · next opened =>
      refine .go (moves.trans (if_pos opened)) ?_
      refine .enter (returns_again shorter (left_fewer (List.tail_suffix left)) _ _ _)
        fun body rest read => ?_
      have rest_length : rest.length ≤ left.tail.length := length_of_plain read
      exact returns_again shorter
        (Nat.lt_of_le_of_lt rest_length (left_fewer (List.tail_suffix left))) _ _ _
    · next opened =>
      exact .go (moves.trans (if_neg opened))
        (returns_again shorter (left_fewer (skipMember_suffix 0 left)) _ _ _)

theorem returns_scopeItem_of_shorter {modifiers : List String} (bound : behind.length ≤ n)
    (moves : (Task.scope qualifier found).move braced ts =
      scopeItemMove qualifier found modifiers behind) :
    Returns braced (.run (.scope qualifier found)) ts depth
      (namespaceItemOf depth qualifier braced found modifiers behind) := by
  cases behind with
  | nil => exact .go moves (.go rfl (.give _ _))
  | cons first more =>
    have fewer : more.length < n := bound
    rw [namespaceItemOf]
    split
    · next brace =>
      have undeclared := not_startsDeclaration_of_brace more brace
      have stays : skipMember 0 (first :: more) = first :: more := by
        rw [skipMember]
        simp [brace, Token.isPunctuation_eq_false brace]
      refine .go (moves.trans (if_neg undeclared)) ?_
      rw [stays]
      have moves : (Task.scope qualifier found).move braced (first :: more) = _ := if_pos brace
      split
      · next inside => exact .go (moves.trans (if_pos inside)) (.give _ _)
      · next inside =>
        exact .go (moves.trans (if_neg inside)) (returns_again shorter fewer _ _ _)
    · next brace =>
      split
      · next declares =>
        refine .call (moves.trans (if_pos declares)) (returns_declaration _ _ _)
          fun declared left read => ?_
        have left_length : left.length ≤ more.length := length_of_plain read
        exact returns_again shorter (Nat.lt_of_le_of_lt left_length fewer) _ _ _
      · next declares =>
        have left_length := skipMember_shorter more (eq_false_of_ne_true brace)
        exact .go (moves.trans (if_neg declares))
          (returns_again shorter (Nat.lt_of_le_of_lt left_length fewer) _ _ _)

theorem returns_scope_of_shorter (bound : ts.length ≤ n) :
    Returns braced (.run (.scope qualifier found)) ts depth
      (namespaceOf depth qualifier braced found ts) := by
  cases ts with
  | nil =>
    rw [namespaceOf_nil]
    exact .go rfl (.give _ _)
  | cons t rest =>
    have fewer : rest.length < n := bound
    rw [namespaceOf_cons]
    split
    · next brace =>
      have moves : (Task.scope qualifier found).move braced (t :: rest) = _ := if_pos brace
      split
      · next inside => exact .go (moves.trans (if_pos inside)) (.give _ _)
      · next inside =>
        exact .go (moves.trans (if_neg inside)) (returns_again shorter fewer _ _ _)
    · next brace =>
      have moves : (Task.scope qualifier found).move braced (t :: rest) = _ := if_neg brace
      split
      · next bracket =>
        exact .go (moves.trans (if_pos bracket)) <| returns_again shorter
          (Nat.lt_of_le_of_lt (skipBalanced_cons_length t rest) fewer) _ _ _
      · next bracket =>
        have moves := moves.trans (if_neg bracket)
        split
        · next global =>
          exact .go (moves.trans (if_pos global)) (returns_again shorter fewer _ _ _)
        · next global =>
          have moves := moves.trans (if_neg global)
          split
          · next using_ =>
            exact returns_using_of_shorter shorter fewer (moves.trans (if_pos using_))
          · next using_ =>
            have moves := moves.trans (if_neg using_)
            split
            · next named =>
              exact returns_namespace_of_shorter shorter fewer (moves.trans (if_pos named))
            · next named =>
              exact returns_scopeItem_of_shorter shorter
                (Nat.le_trans (readModifiers_length _) bound) (moves.trans (if_neg named))

end

theorem readsScopes (n : Nat) : ReadsScopes n := by
  induction n using Nat.strongRecOn with
  | ind n shorter => exact fun bound => returns_scope_of_shorter shorter bound

theorem returns_scope (qualifier : Option String) (found : Contents) :
    Returns braced (.run (.scope qualifier found)) ts depth
      (namespaceOf depth qualifier braced found ts) :=
  readsScopes ts.length (Nat.le_refl _)

end ConventionLint.Source.Machine
