import ConventionLint.Proofs.Source.Leftover
import ConventionLint.Proofs.Source.Lexing
import Mathlib.Data.List.Nodup
import Mathlib.Data.List.Perm.Subperm

/-!
# Places of declarations

Tokens follow one another in a text, so no two of them start at the same place. Every name that is
read of a declaration or member is a token that was taken, and no token is taken twice: the places
of all that a file declares are different.
-/
namespace ConventionLint

/-! ## Places in a text -/

namespace Position

/-- Whether a place comes before another in every text. -/
def Before (p q : Position) : Prop :=
  p.line < q.line ∨ p.line = q.line ∧ p.column < q.column

variable {p q r : Position}

theorem Before.ne (h : p.Before q) : p ≠ q := by
  rintro rfl
  rcases h with line | ⟨-, column⟩
  · exact Nat.lt_irrefl _ line
  · exact Nat.lt_irrefl _ column

theorem Before.trans (first : p.Before q) (second : q.Before r) : p.Before r := by
  rw [Before] at *
  omega

theorem before_advance (p : Position) (c : Char) : p.Before (p.advance c) := by
  rw [advance]
  split
  · exact .inl (Nat.lt_succ_self _)
  · exact .inr ⟨rfl, Nat.lt_succ_self _⟩

theorem before_after {text : List Char} (filled : text ≠ []) (p : Position) :
    p.Before (p.after text) := by
  cases text with
  | nil => exact absurd rfl filled
  | cons c text =>
    clear filled
    induction text generalizing p c with
    | nil => exact before_advance p c
    | cons d text ih => exact (before_advance p c).trans (ih (p.advance c) d)

end Position

namespace Source

def spots (ts : List Token) : List Position :=
  ts.map (·.position)

/-- Tokens stand in the order of their places. -/
theorem spots_locate {found : List Piece} (filled : ∀ piece ∈ found, piece.text ≠ [])
    (p : Position) : (∀ q ∈ spots (locate [] p found), p = q ∨ p.Before q) ∧
      (spots (locate [] p found)).Pairwise Position.Before := by
  induction found generalizing p with
  | nil => simp [locate, spots]
  | cons piece found ih =>
    have later := Position.before_after (filled piece (by simp)) p
    obtain ⟨behind, ordered⟩ :=
      ih (fun other member => filled other (List.mem_cons_of_mem _ member)) (p.after piece.text)
    have after (q : Position) (member : q ∈ spots (locate [] (p.after piece.text) found)) :
        p.Before q := by
      rcases behind q member with rfl | before
      · exact later
      · exact later.trans before
    by_cases lexeme : ∃ kind, piece.kind = .lexeme kind
    · obtain ⟨kind, shape⟩ := lexeme
      rw [locate_cons_lexeme shape, spots, List.map_cons]
      refine ⟨fun q member => ?_, List.pairwise_cons.2 ⟨after, ordered⟩⟩
      rcases List.mem_cons.1 member with rfl | rest
      · exact .inl rfl
      · exact .inr (after q rest)
    · rw [locate_cons_filler (not_exists.1 lexeme)]
      exact ⟨fun q member => .inr (after q member), ordered⟩

theorem filled_of_cutFrom {passed : Nat} {lineStart : Bool} {done found : List Piece}
    {s : List Char} (before : ∀ piece ∈ done, piece.text ≠ [])
    (run : cutFrom passed lineStart done s = .ok found) : ∀ piece ∈ found, piece.text ≠ [] := by
  fun_induction cutFrom passed lineStart done s with
  | case1 passed lineStart done =>
    obtain rfl := Except.ok.inj run
    exact fun piece member => before piece (List.mem_reverse.1 member)
  | case2 => cases run
  | case3 passed lineStart done c rest kind n _ ih =>
    refine ih (fun piece member => ?_) run
    rcases List.mem_cons.1 member with rfl | old
    · simp
    · exact before piece old

/-- No two tokens of a text start at one place. -/
theorem spots_nodup {source : String} {ts : List Token} (lexed : tokens source = .ok ts) :
    (spots ts).Nodup := by
  rw [tokens] at lexed
  dsimp only at lexed
  split at lexed
  · next found cut =>
    obtain rfl := Except.ok.inj lexed
    have filled : ∀ piece ∈ found, piece.text ≠ [] :=
      filled_of_cutFrom (fun piece member => by cases member) cut
    exact (spots_locate filled .start).2.imp Position.Before.ne
  · cases lexed

/-! ## Taking tokens -/

/-- What was found are tokens that are not left. -/
def Takes (ts rest found : List Token) : Prop :=
  ∀ t, found.count t + rest.count t ≤ ts.count t

variable {ts us rest left a b found : List Token}

theorem count_le_of_suffix (ending : rest <:+ ts) (t : Token) : rest.count t ≤ ts.count t :=
  ending.sublist.count_le t

theorem Takes.nothing (ending : rest <:+ ts) : Takes ts rest [] := by
  intro t
  rw [List.count_nil, Nat.zero_add]
  exact count_le_of_suffix ending t

theorem Takes.first (t : Token) (ts : List Token) : Takes (t :: ts) ts [t] := by
  intro u
  rw [← List.count_append, List.singleton_append]

theorem Takes.trans (first : Takes ts us a) (second : Takes us rest b) :
    Takes ts rest (a ++ b) := by
  intro t
  have := first t
  have := second t
  rw [List.count_append]
  omega

theorem Takes.of_end (ending : us <:+ ts) (h : Takes us rest a) : Takes ts rest a :=
  fun t => Nat.le_trans (h t) (count_le_of_suffix ending t)

theorem Takes.leave (h : Takes ts rest a) (ending : left <:+ rest) : Takes ts left a :=
  fun t => Nat.le_trans (Nat.add_le_add_left (count_le_of_suffix ending t) _) (h t)

/-- A token that was taken may be used as if it were still there. -/
theorem Takes.through {t : Token} (first : Takes ts us [t])
    (second : Takes (t :: us) rest a) : Takes ts rest a := by
  intro u
  refine Nat.le_trans (second u) ?_
  rw [← List.singleton_append, List.count_append]
  exact first u

/-! ## Members -/

def placesOf (members : List MemberDeclaration) : List Position :=
  members.map (·.position)

def nameAt (name : String) (p : Position) : Token :=
  ⟨.identifier, name, p⟩

def namesOf (members : List MemberDeclaration) : List Token :=
  members.map fun m => nameAt m.name m.position

theorem nameAt_of_isIdentifier {t : Token} (named : t.isIdentifier = true) :
    nameAt t.text t.position = t := by
  have kind : t.kind = .identifier := of_decide_eq_true named
  rw [nameAt, ← kind]

theorem readMemberName_isIdentifier {name : Token} (named : name.isIdentifier = true)
    (ts : List Token) : (readMemberName name ts).1.isIdentifier = true := by
  fun_induction readMemberName name ts with
  | case1 name ts behind dot next rest shape separated ih =>
    exact ih (Bool.and_eq_true_iff.1 separated).2
  | case2 => exact named
  | case3 => exact named

theorem readMemberName_takes (name : Token) (ts : List Token) :
    Takes (name :: ts) (readMemberName name ts).2.2 [(readMemberName name ts).1] := by
  fun_induction readMemberName name ts with
  | case1 name ts behind dot next rest shape _ ih =>
    have ending : next :: rest <:+ ts :=
      (List.suffix_cons dot _).trans (shape ▸ nameArguments_suffix ts)
    exact ih.of_end (cons_suffix ending)
  | case2 name ts => exact (Takes.first name ts).leave (nameArguments_suffix ts)
  | case3 name ts => exact (Takes.first name ts).leave (nameArguments_suffix ts)

theorem readDeclarators_isIdentifier (inner : Nat) {found : List Token}
    (named : ∀ t ∈ found, t.isIdentifier = true) (ts : List Token) :
    ∀ t ∈ (readDeclarators inner found ts).1, t.isIdentifier = true := by
  have kept {found : List Token} (named : ∀ t ∈ found, t.isIdentifier = true) :
      ∀ t ∈ found.reverse, t.isIdentifier = true := fun t member =>
    named t (List.mem_reverse.1 member)
  fun_induction readDeclarators inner found ts with
  | case1 => exact kept named
  | case2 => exact kept named
  | case3 => exact kept named
  | case4 _ _ _ _ _ _ name behind declares ih =>
    have identifier : name.isIdentifier = true := (Bool.and_eq_true_iff.1 declares).1
    exact ih (List.forall_mem_cons.2 ⟨identifier, named⟩)
  | case5 _ _ _ _ _ _ _ _ _ ih => exact ih named
  | case6 => exact kept named
  | case7 _ _ _ _ _ _ _ _ ih => exact ih named
  | case8 _ _ _ _ _ _ _ _ _ ih => exact ih named
  | case9 _ _ _ _ _ _ _ _ _ ih => exact ih named

theorem count_readDeclarators (inner : Nat) (found ts : List Token) (u : Token) :
    (readDeclarators inner found ts).1.count u + (readDeclarators inner found ts).2.count u
      ≤ found.count u + ts.count u := by
  have kept (found : List Token) : found.reverse.count u ≤ found.count u :=
    Nat.le_of_eq List.count_reverse
  have skipped {t : Token} {found rest : List Token} {n : Nat}
      (shorter : n ≤ found.count u + rest.count u) : n ≤ found.count u + (t :: rest).count u :=
    Nat.le_trans shorter (Nat.add_le_add_left (count_le_of_suffix (List.suffix_cons t rest) u) _)
  fun_induction readDeclarators inner found ts with
  | case1 => exact Nat.add_le_add_right (kept _) _
  | case2 => exact skipped (Nat.add_le_add_right (kept _) _)
  | case3 => exact Nat.add_le_add_right (kept _) _
  | case4 _ found t _ _ _ name behind _ ih =>
    have moved : (name :: found).count u + behind.count u
        = found.count u + (name :: behind).count u := by
      simp only [List.count_cons]
      omega
    rw [moved] at ih
    exact skipped ih
  | case5 _ _ _ _ _ _ _ _ _ ih => exact skipped ih
  | case6 => exact skipped (Nat.add_le_add_right (kept _) _)
  | case7 _ _ _ _ _ _ _ _ ih => exact skipped ih
  | case8 _ _ _ _ _ _ _ _ _ ih => exact skipped ih
  | case9 _ _ _ _ _ _ _ _ _ ih => exact skipped ih

theorem readDeclarators_takes (ts : List Token) :
    Takes ts (readDeclarators 0 [] ts).2 (readDeclarators 0 [] ts).1 := by
  intro u
  have taken := count_readDeclarators 0 [] ts u
  rwa [List.count_nil, Nat.zero_add] at taken

theorem readNamedMember_takes (owner : Owner) (modifiers : List String) {name : Token}
    (identifier : name.isIdentifier = true) (generic : Bool) (ts : List Token) :
    Takes (name :: ts) (readNamedMember owner modifiers name generic ts).2
      (namesOf (readNamedMember owner modifiers name generic ts).1) := by
  have named {rest : List Token} (ending : rest <:+ ts) :
      Takes (name :: ts) rest [nameAt name.text name.position] := by
    rw [nameAt_of_isIdentifier identifier]
    exact (Takes.first name ts).leave ending
  unfold readNamedMember
  dsimp only
  split
  · exact named (skipMember_suffix 0 ts)
  · split
    · exact named (readAccessorList_suffix _ ts)
    · split
      · exact named (skipMember_suffix 0 ts)
      · split
        · have identifiers := readDeclarators_isIdentifier 0 (List.forall_mem_nil _) ts
          have further : (readDeclarators 0 [] ts).1.map (fun t => nameAt t.text t.position)
              = (readDeclarators 0 [] ts).1 :=
            (List.map_congr_left (g := id) fun t member =>
              nameAt_of_isIdentifier (identifiers t member)).trans (List.map_id _)
          have fields := (named List.suffix_rfl).trans (readDeclarators_takes ts)
          rw [← further] at fields
          simpa [namesOf, Function.comp_def] using fields
        · exact .nothing (cons_suffix (skipMember_suffix 0 ts))

theorem readTypedMember_takes (owner : Owner) (modifiers : List String) (typed : Bool)
    (ts : List Token) : Takes ts (readTypedMember owner modifiers typed ts).2
      (namesOf (readTypedMember owner modifiers typed ts).1) := by
  cases ts with
  | nil => exact .nothing List.suffix_rfl
  | cons name rest =>
    rw [readTypedMember]
    split
    · next identified =>
      simp only [Bool.and_eq_true] at identified
      exact (readMemberName_takes name rest).through (readNamedMember_takes owner modifiers
        (readMemberName_isIdentifier identified.1.1.2 rest) (readMemberName name rest).2.1 _)
    · exact .nothing (skipMember_suffix 0 _)

theorem readMember_takes {owner : Owner} {depth : Nat} {modifiers : List String}
    {found : List MemberDeclaration × List Token}
    (run : readMember owner depth modifiers ts = .ok found) :
    Takes ts found.2 (namesOf found.1) := by
  rw [readMember_eq] at run
  split at run
  · obtain rfl := Except.ok.inj run
    exact .nothing List.suffix_rfl
  · split at run
    · obtain rfl := Except.ok.inj run
      exact .nothing (skipMember_suffix 0 ts)
    · obtain ⟨⟨type?, left⟩, typed, run⟩ := bind_eq_ok run
      obtain rfl := Except.ok.inj run
      exact (readTypedMember_takes owner modifiers type?.isSome left).of_end (typeOf_suffix typed)

/-! ## Declarations -/

theorem headerOf_takes {depth : Nat} {keyword : String} {found : Option Header × List Token}
    (run : headerOf depth keyword ts = .ok found) :
    Takes ts found.2 (found.1.toList.map fun h => nameAt h.name.text h.name.position) := by
  have kinded := declarationKind_suffix keyword ts
  rw [headerOf_eq] at run
  split at run
  · next kind name rest eq =>
    rw [eq] at kinded
    split at run
    · next identifier =>
      obtain ⟨⟨bases, left⟩, listed, run⟩ := bind_eq_ok run
      obtain rfl := Except.ok.inj run
      have ending : left.dropWhile (!endsHead ·) <:+ rest :=
        (List.dropWhile_suffix _).trans <| (baseListOf_suffix listed).trans <|
          (skipParameters_suffix _).trans (readTypeParameterList_suffix rest)
      rw [Option.toList_some, List.map_singleton, nameAt_of_isIdentifier identifier]
      exact ((Takes.first name rest).leave ending).of_end kinded
    · obtain rfl := Except.ok.inj run
      exact .nothing ((skipMember_suffix 0 _).trans kinded)
  · next rest _ eq =>
    obtain rfl := Except.ok.inj run
    rw [eq] at kinded
    exact .nothing ((skipMember_suffix 0 _).trans kinded)

end Source

mutual

/-- Where a declaration, its members and what is nested in it are named. -/
def TypeDeclaration.places : TypeDeclaration → List Position
  | ⟨_, _, _, _, _, members, nested, position, _⟩ =>
    position :: (Source.placesOf members ++ TypeDeclaration.placesOfAll nested)

def TypeDeclaration.placesOfAll : List TypeDeclaration → List Position
  | [] => []
  | d :: ds => d.places ++ TypeDeclaration.placesOfAll ds

end

theorem TypeDeclaration.placesOfAll_eq (ds : List TypeDeclaration) :
    TypeDeclaration.placesOfAll ds = ds.flatMap TypeDeclaration.places := by
  induction ds with
  | nil => rfl
  | cons d ds ih => rw [placesOfAll, ih, List.flatMap_cons]

/-- Where all that a file declares is named. -/
def SourceFile.places (f : SourceFile) : List Position :=
  f.types.flatMap TypeDeclaration.places

mutual

def TypeDeclaration.nameTokens : TypeDeclaration → List Source.Token
  | ⟨name, _, _, _, _, members, nested, position, _⟩ =>
    Source.nameAt name position ::
      (Source.namesOf members ++ TypeDeclaration.nameTokensOfAll nested)

def TypeDeclaration.nameTokensOfAll : List TypeDeclaration → List Source.Token
  | [] => []
  | d :: ds => d.nameTokens ++ TypeDeclaration.nameTokensOfAll ds

end

theorem TypeDeclaration.nameTokensOfAll_eq (ds : List TypeDeclaration) :
    TypeDeclaration.nameTokensOfAll ds = ds.flatMap TypeDeclaration.nameTokens := by
  induction ds with
  | nil => rfl
  | cons d ds ih => rw [nameTokensOfAll, ih, List.flatMap_cons]

mutual

theorem TypeDeclaration.places_eq : ∀ d : TypeDeclaration,
    d.places = d.nameTokens.map (·.position)
  | ⟨_, _, _, _, _, members, nested, position, _⟩ => by
    rw [places, nameTokens, placesOfAll_eq_map nested]
    simp [Source.placesOf, Source.namesOf, Source.nameAt, Function.comp_def]

theorem TypeDeclaration.placesOfAll_eq_map : ∀ ds : List TypeDeclaration,
    placesOfAll ds = (nameTokensOfAll ds).map (·.position)
  | [] => rfl
  | d :: ds => by
    rw [placesOfAll, nameTokensOfAll, d.places_eq, placesOfAll_eq_map ds, List.map_append]

end

def SourceFile.nameTokens (f : SourceFile) : List Source.Token :=
  f.types.flatMap TypeDeclaration.nameTokens

theorem SourceFile.places_eq (f : SourceFile) : f.places = f.nameTokens.map (·.position) := by
  rw [places, nameTokens, ← TypeDeclaration.placesOfAll_eq, TypeDeclaration.placesOfAll_eq_map,
    TypeDeclaration.nameTokensOfAll_eq]

namespace Source

def TypeBody.nameTokens (body : TypeBody) : List Token :=
  namesOf body.members ++ body.nested.flatMap TypeDeclaration.nameTokens

theorem TypeBody.count_inOrder (body : TypeBody) (u : Token) :
    body.inOrder.nameTokens.count u = body.nameTokens.count u := by
  refine List.Perm.count_eq ?_ u
  rw [nameTokens, nameTokens, inOrder, namesOf, List.map_reverse]
  exact (List.reverse_perm _).append ((List.reverse_perm _).flatMap_right _)

theorem TypeBody.count_addMembers (body : TypeBody) (members : List MemberDeclaration)
    (u : Token) : (body.addMembers members).nameTokens.count u
      = (namesOf members).count u + body.nameTokens.count u := by
  rw [nameTokens, nameTokens, addMembers, namesOf, List.map_append, List.map_reverse]
  simp only [List.count_append, List.count_reverse, namesOf]
  omega

theorem TypeBody.count_addNested (body : TypeBody) (nested : Option TypeDeclaration)
    (u : Token) : (body.addNested nested).nameTokens.count u
      = (nested.toList.flatMap TypeDeclaration.nameTokens).count u + body.nameTokens.count u := by
  rw [nameTokens, nameTokens, addNested, List.flatMap_append]
  simp only [List.count_append]
  omega

theorem nameTokens_declare (header : Header) (qualifier : Option String) (modifiers : List String)
    (body : TypeBody) : (header.declare qualifier modifiers body).nameTokens
      = nameAt header.name.text header.name.position :: body.nameTokens := by
  rw [Header.declare, TypeDeclaration.nameTokens, TypeDeclaration.nameTokensOfAll_eq,
    TypeBody.nameTokens]

/-- What declarations and bodies of at most `n` tokens take. -/
structure TakesPlaces (n : Nat) : Prop where
  declaration {depth : Nat} {qualifier : Option String} {modifiers : List String}
    {keyword : String} {ts : List Token} {found : Option TypeDeclaration × List Token} :
    ts.length ≤ n → declarationOf depth qualifier modifiers keyword ts = .ok found →
    Takes ts found.2 (found.1.toList.flatMap TypeDeclaration.nameTokens)
  body {depth : Nat} {qualifier : Option String} {owner : Owner} {read : TypeBody}
    {ts : List Token} {found : TypeBody × List Token} :
    ts.length ≤ n → bodyOf depth qualifier owner read ts = .ok found → ∀ u,
    found.1.nameTokens.count u + found.2.count u
      ≤ read.nameTokens.count u + ts.count u

section

variable {n depth : Nat} {qualifier : Option String} {ts : List Token}
  (shorter : ∀ m < n, TakesPlaces m) (bound : ts.length ≤ n)
include shorter bound

theorem declarationOf_takes_of_shorter {modifiers : List String} {keyword : String}
    {found : Option TypeDeclaration × List Token}
    (run : declarationOf depth qualifier modifiers keyword ts = .ok found) :
    Takes ts found.2 (found.1.toList.flatMap TypeDeclaration.nameTokens) := by
  rw [declarationOf_eq] at run
  obtain ⟨⟨header?, left⟩, head, run⟩ := bind_eq_ok run
  have named := headerOf_takes head
  cases header? with
  | none =>
    obtain rfl := Except.ok.inj run
    exact named
  | some header =>
    have declared {body : TypeBody} {behind : List Token}
        (taken : Takes ts behind
          (nameAt header.name.text header.name.position :: body.nameTokens)) :
        Takes ts (skipOne ";" behind)
          ((some (header.declare qualifier modifiers body)).toList.flatMap
            TypeDeclaration.nameTokens) := by
      rw [Option.toList_some, List.flatMap_singleton, nameTokens_declare]
      exact taken.leave (skipOne_suffix ";" behind)
    dsimp only at run
    split at run
    · next opened =>
      obtain ⟨inner, -, run⟩ := bind_eq_ok run
      obtain ⟨⟨body, behind⟩, inside, run⟩ := bind_eq_ok run
      obtain rfl := Except.ok.inj run
      have fewer : left.tail.length < ts.length :=
        Nat.lt_of_lt_of_le (tail_shorter opened) (length_of_plain head)
      have members := (shorter _ (Nat.lt_of_lt_of_le fewer bound)).body (Nat.le_refl _) inside
      exact declared <| (named.leave (List.tail_suffix left)).trans fun u => by
        simpa [TypeBody.nameTokens, TypeBody.empty, namesOf] using members u
    · obtain rfl := Except.ok.inj run
      exact declared named

theorem bodyItemOf_takes_of_shorter {owner : Owner} {read : TypeBody} {modifiers : List String}
    {found : TypeBody × List Token}
    (run : bodyItemOf depth qualifier owner read modifiers ts = .ok found) (u : Token) :
    found.1.nameTokens.count u + found.2.count u
      ≤ read.nameTokens.count u + ts.count u := by
  cases ts with
  | nil =>
    obtain rfl := Except.ok.inj run
    exact Nat.add_le_add_right (Nat.le_of_eq (read.count_inOrder u)) _
  | cons first more =>
    have fewer : more.length < n := bound
    have passed := count_le_of_suffix (List.suffix_cons first more) u
    rw [bodyItemOf] at run
    split at run
    · obtain rfl := Except.ok.inj run
      rw [read.count_inOrder]
      exact Nat.add_le_add_left passed _
    · next inside =>
      split at run
      · obtain ⟨⟨nested, left⟩, declared, run⟩ := bind_eq_ok run
        have left_length : left.length ≤ more.length := length_of_plain declared
        have taken := (shorter _ fewer).declaration (Nat.le_refl _) declared u
        have further := (shorter _ fewer).body left_length run u
        rw [read.count_addNested] at further
        dsimp only at taken
        omega
      · obtain ⟨⟨members, left⟩, listed, run⟩ := bind_eq_ok run
        have left_length : left.length ≤ more.length :=
          readMember_shorter listed (eq_false_of_ne_true inside)
        have taken := readMember_takes listed u
        have further := (shorter _ fewer).body left_length run u
        rw [read.count_addMembers] at further
        dsimp only at taken
        omega

theorem bodyOf_takes_of_shorter {owner : Owner} {read : TypeBody} {found : TypeBody × List Token}
    (run : bodyOf depth qualifier owner read ts = .ok found) (u : Token) :
    found.1.nameTokens.count u + found.2.count u
      ≤ read.nameTokens.count u + ts.count u := by
  cases ts with
  | nil =>
    rw [bodyOf_nil] at run
    obtain rfl := Except.ok.inj run
    exact Nat.add_le_add_right (Nat.le_of_eq (read.count_inOrder u)) _
  | cons t rest =>
    have fewer : rest.length < n := bound
    have passed {left : List Token} (ending : left <:+ t :: rest) := count_le_of_suffix ending u
    rw [bodyOf_cons] at run
    split at run
    · obtain rfl := Except.ok.inj run
      rw [read.count_inOrder]
      exact Nat.add_le_add_left (passed (List.suffix_cons t rest)) _
    · split at run
      · exact Nat.le_trans ((shorter _ fewer).body (Nat.le_refl _) run u)
          (Nat.add_le_add_left (passed (List.suffix_cons t rest)) _)
      · split at run
        · exact Nat.le_trans ((shorter _ fewer).body (skipBalanced_cons_length t rest) run u)
            (Nat.add_le_add_left (passed (skipBalanced_suffix _)) _)
        · have modified := readModifiers_suffix (t :: rest)
          exact Nat.le_trans (bodyItemOf_takes_of_shorter shorter
            (Nat.le_trans modified.length_le bound) run u) (Nat.add_le_add_left (passed modified) _)

end

theorem takesPlaces (n : Nat) : TakesPlaces n := by
  induction n using Nat.strongRecOn with
  | ind n shorter =>
    exact ⟨fun bound run => declarationOf_takes_of_shorter shorter bound run,
      fun bound run => bodyOf_takes_of_shorter shorter bound run⟩

theorem declarationOf_takes {depth : Nat} {qualifier : Option String} {modifiers : List String}
    {keyword : String} {ts : List Token} {found : Option TypeDeclaration × List Token}
    (run : declarationOf depth qualifier modifiers keyword ts = .ok found) :
    Takes ts found.2 (found.1.toList.flatMap TypeDeclaration.nameTokens) :=
  (takesPlaces ts.length).declaration (Nat.le_refl _) run

/-! ## Files -/

def Contents.nameTokens (c : Contents) : List Token :=
  c.types.flatMap TypeDeclaration.nameTokens

theorem Contents.count_addType (c : Contents) (type : Option TypeDeclaration) (u : Token) :
    (c.addType type).nameTokens.count u
      = (type.toList.flatMap TypeDeclaration.nameTokens).count u + c.nameTokens.count u := by
  rw [nameTokens, addType, List.flatMap_append, List.count_append, nameTokens]

theorem nameTokens_of_usingOf {depth : Nat} {read : Contents} {ts : List Token}
    {found : Contents × List Token} (run : usingOf depth read ts = .ok found) :
    found.1.nameTokens = read.nameTokens := by
  rw [usingOf_eq] at run
  split at run
  · obtain ⟨⟨type?, left⟩, -, run⟩ := bind_eq_ok run
    obtain rfl := Except.ok.inj run
    rfl
  · split at run
    · obtain rfl := Except.ok.inj run
      dsimp only
      rw [Contents.addImport]
      split <;> rfl
    · obtain rfl := Except.ok.inj run
      rfl

/-- What namespaces of at most `n` tokens take. -/
def NamespaceTakes (n : Nat) : Prop :=
  ∀ {depth : Nat} {qualifier : Option String} {braced : Bool} {read : Contents} {ts : List Token}
    {found : Contents × List Token}, ts.length ≤ n →
    namespaceOf depth qualifier braced read ts = .ok found → ∀ u,
    found.1.nameTokens.count u + found.2.count u ≤ read.nameTokens.count u + ts.count u

section

variable {n depth : Nat} {qualifier : Option String} {braced : Bool} {read : Contents}
  {found : Contents × List Token} {ts : List Token} (shorter : ∀ m < n, NamespaceTakes m)
include shorter

theorem namespaceOf_takes_of_end {us : List Token} (ending : us <:+ ts) (fewer : us.length < n)
    (run : namespaceOf depth qualifier braced read us = .ok found) (u : Token) :
    found.1.nameTokens.count u + found.2.count u
      ≤ read.nameTokens.count u + ts.count u :=
  Nat.le_trans (shorter _ fewer (Nat.le_refl _) run u)
    (Nat.add_le_add_left (count_le_of_suffix ending u) _)

theorem namespaceBehind_takes_of_shorter (bound : ts.length < n)
    (run : namespaceBehind depth qualifier braced read ts = .ok found) (u : Token) :
    found.1.nameTokens.count u + found.2.count u
      ≤ read.nameTokens.count u + ts.count u := by
  have named := readDottedName_suffix ts
  have inside := (List.tail_suffix _).trans named
  rw [namespaceBehind] at run
  dsimp only at run
  split at run
  · exact namespaceOf_takes_of_end shorter inside (Nat.lt_of_le_of_lt inside.length_le bound) run u
  · split at run
    · obtain ⟨inner, -, run⟩ := bind_eq_ok run
      obtain ⟨⟨body, left⟩, bodied, run⟩ := bind_eq_ok run
      have left_length : left.length ≤ ts.length :=
        Nat.le_trans (length_of_plain bodied) inside.length_le
      have first := namespaceOf_takes_of_end shorter inside
        (Nat.lt_of_le_of_lt inside.length_le bound) bodied u
      have second := shorter _ (Nat.lt_of_le_of_lt left_length bound) (Nat.le_refl _) run u
      exact Nat.le_trans second first
    · have skipped := (skipMember_suffix 0 _).trans named
      exact namespaceOf_takes_of_end shorter skipped
        (Nat.lt_of_le_of_lt skipped.length_le bound) run u

theorem namespaceItemOf_takes_of_shorter {modifiers : List String} (bound : ts.length ≤ n)
    (run : namespaceItemOf depth qualifier braced read modifiers ts = .ok found) (u : Token) :
    found.1.nameTokens.count u + found.2.count u
      ≤ read.nameTokens.count u + ts.count u := by
  cases ts with
  | nil =>
    obtain rfl := Except.ok.inj run
    exact Nat.le_refl _
  | cons first more =>
    have fewer : more.length < n := bound
    have behind := List.suffix_cons first more
    rw [namespaceItemOf] at run
    split at run
    · split at run
      · obtain rfl := Except.ok.inj run
        exact Nat.add_le_add_left (count_le_of_suffix behind u) _
      · exact namespaceOf_takes_of_end shorter behind fewer run u
    · next inside =>
      split at run
      · obtain ⟨⟨type?, left⟩, declared, run⟩ := bind_eq_ok run
        have left_length : left.length ≤ more.length := length_of_plain declared
        have taken := declarationOf_takes declared u
        have passed := count_le_of_suffix behind u
        have further := shorter _ fewer left_length run u
        rw [read.count_addType] at further
        dsimp only at taken
        omega
      · have skipped : (skipMember 0 (first :: more)).length < n :=
          Nat.lt_of_le_of_lt (skipMember_shorter more (eq_false_of_ne_true inside)) fewer
        exact namespaceOf_takes_of_end shorter (skipMember_suffix 0 _) skipped run u

theorem namespaceOf_takes_of_shorter (bound : ts.length ≤ n)
    (run : namespaceOf depth qualifier braced read ts = .ok found) (u : Token) :
    found.1.nameTokens.count u + found.2.count u
      ≤ read.nameTokens.count u + ts.count u := by
  cases ts with
  | nil =>
    rw [namespaceOf_nil] at run
    obtain rfl := Except.ok.inj run
    exact Nat.le_refl _
  | cons t rest =>
    have fewer : rest.length < n := bound
    have behind := List.suffix_cons t rest
    rw [namespaceOf_cons] at run
    split at run
    · split at run
      · obtain rfl := Except.ok.inj run
        exact Nat.add_le_add_left (count_le_of_suffix behind u) _
      · exact namespaceOf_takes_of_end shorter behind fewer run u
    · split at run
      · exact namespaceOf_takes_of_end shorter (skipBalanced_suffix _)
          (Nat.lt_of_le_of_lt (skipBalanced_cons_length t rest) fewer) run u
      · split at run
        · exact namespaceOf_takes_of_end shorter behind fewer run u
        · split at run
          · obtain ⟨⟨used, left⟩, directive, run⟩ := bind_eq_ok run
            have ending : left <:+ rest := usingOf_suffix directive
            have same : used.nameTokens = read.nameTokens := nameTokens_of_usingOf directive
            rw [← same]
            exact namespaceOf_takes_of_end shorter (ending.trans behind)
              (Nat.lt_of_le_of_lt ending.length_le fewer) run u
          · split at run
            · exact Nat.le_trans (namespaceBehind_takes_of_shorter shorter fewer run u)
                (Nat.add_le_add_left (count_le_of_suffix behind u) _)
            · have modified := readModifiers_suffix (t :: rest)
              exact Nat.le_trans (namespaceItemOf_takes_of_shorter shorter
                (Nat.le_trans modified.length_le bound) run u)
                (Nat.add_le_add_left (count_le_of_suffix modified u) _)

end

theorem namespaceTakes (n : Nat) : NamespaceTakes n := by
  induction n using Nat.strongRecOn with
  | ind n shorter => exact fun bound run => namespaceOf_takes_of_shorter shorter bound run

end Source

/-- Every name of a scanned file is a token of its text, and no token names twice. -/
theorem SourceFile.nameTokens_subperm {path : Path} {source : String} {f : SourceFile}
    (scanned : SourceFile.scan path source = .ok f) :
    ∃ ts, Source.tokens source = .ok ts ∧ f.nameTokens.Subperm ts := by
  obtain ⟨ts, lexed, read⟩ := bind_eq_ok scanned
  rw [Source.readFile_eq] at read
  obtain ⟨⟨found, left⟩, contents, run⟩ := bind_eq_ok read
  obtain rfl := Except.ok.inj run
  have ordered : (found.types.reverse.flatMap TypeDeclaration.nameTokens).Perm found.nameTokens :=
    (List.reverse_perm _).flatMap_right _
  refine ⟨ts, lexed, ordered.subperm.trans (List.subperm_ext_iff.2 fun u _ => ?_)⟩
  have all := Source.namespaceTakes _ (Nat.le_refl _) contents u
  simp only [Source.Contents.nameTokens, Source.Contents.empty, List.flatMap_nil,
    List.count_nil] at all ⊢
  omega

/-- What is declared in a scanned file stands at different places. -/
theorem SourceFile.places_nodup {path : Path} {source : String} {f : SourceFile}
    (scanned : SourceFile.scan path source = .ok f) : f.places.Nodup := by
  obtain ⟨ts, lexed, named, same, among⟩ := SourceFile.nameTokens_subperm scanned
  rw [places_eq, ← (same.map _).nodup_iff]
  exact (Source.spots_nodup lexed).sublist (among.map _)

theorem SourceFile.path_of_scan {path : Path} {source : String} {f : SourceFile}
    (scanned : SourceFile.scan path source = .ok f) : f.path = path := by
  obtain ⟨ts, -, read⟩ := bind_eq_ok scanned
  rw [Source.readFile_eq] at read
  obtain ⟨⟨found, left⟩, -, run⟩ := bind_eq_ok read
  exact Except.ok.inj run ▸ rfl

end ConventionLint
