import ConventionLint.Proofs.Source.Leftover
import Mathlib.Logic.Relation

/-!
# Reading step by step

The readers as a machine that takes one turn of a loop, one call or one return at a time. Its state
shows what the readers pass over in silence: the tokens left, the depth of nesting and the fault at
every moment, also after a fault, when the rest of the file is abandoned and all that is open
returns.

The machine keeps a stack of what waits for a value. Stack and control are typed by the part that is
being read, so a value meets only what can take it.
-/
namespace ConventionLint.Source.Machine

/-- What is read by a loop or a call of its own. -/
inductive Part where
  | scope
  | declaration
  | bases
  | body
  | type
  | arguments
deriving DecidableEq, Repr

/-- What a part is read to. -/
abbrev Part.Value : Part → Type
  | .scope => Contents
  | .declaration => Option TypeDeclaration
  | .bases => List WrittenType
  | .body => TypeBody
  | .type => Option WrittenType
  | .arguments => List WrittenType

/-- Where the reading of a part is. -/
inductive Task : Part → Type where
  /-- At the next item of a namespace or file. -/
  | scope (qualifier : Option String) (found : Contents) : Task .scope
  /-- Behind the keyword of a declaration. -/
  | declaration (qualifier : Option String) (modifiers : List String) (keyword : String) :
    Task .declaration
  /-- Behind the base list of a declaration. -/
  | headed (qualifier : Option String) (modifiers : List String) (header : Header) :
    Task .declaration
  /-- At the next base. -/
  | bases (found : List WrittenType) : Task .bases
  /-- At the next item of a body. -/
  | body (qualifier : Option String) (owner : Owner) (found : TypeBody) : Task .body
  | type : Task .type
  /-- Behind a segment of a dotted type. -/
  | segments (names : List String) (listed : List WrittenType) : Task .type
  /-- Behind a segment and its arguments. -/
  | separator (names : List String) (listed : List WrittenType) : Task .type
  /-- At the next type argument. -/
  | arguments (found : List WrittenType) : Task .arguments

/-- What nests: it is entered in the second part, and the first is read inside. -/
inductive Construct : Part → Part → Type where
  | namespaceBody (outer : Option String) (name : String) (found : Contents) :
    Construct .scope .scope
  | typeBody (qualifier : Option String) (modifiers : List String) (header : Header) :
    Construct .body .declaration
  | typeArguments (names : List String) : Construct .arguments .type

/-- What waits in the second part for a value of the first that it called for. -/
inductive Frame : Part → Part → Type where
  | aliasIn (qualifier : Option String) (found : Contents) (name : String) : Frame .type .scope
  | typeIn (qualifier : Option String) (found : Contents) : Frame .declaration .scope
  | basesOf (qualifier : Option String) (modifiers : List String) (name : Token)
    (kind : DeclarationKind) (typeParameters : List String) : Frame .bases .declaration
  | nestedIn (qualifier : Option String) (owner : Owner) (found : TypeBody) :
    Frame .declaration .body
  | memberIn (qualifier : Option String) (owner : Owner) (found : TypeBody)
    (modifiers : List String) : Frame .type .body
  | baseIn (found : List WrittenType) : Frame .type .bases
  | argumentIn (found : List WrittenType) : Frame .type .arguments

/-- What has been called and entered, up to the file. -/
inductive Stack : Part → Type where
  | file : Stack .scope
  | called {p q : Part} (frame : Frame p q) (outer : Stack q) : Stack p
  | entered {p q : Part} (construct : Construct p q) (outer : Stack q) : Stack p

def Stack.level {p : Part} : Stack p → Nat
  | .file => 0
  | .called _ outer => outer.level
  | .entered _ outer => outer.level + 1

def Stack.height {p : Part} : Stack p → Nat
  | .file => 0
  | .called _ outer | .entered _ outer => outer.height + 1

/-- Whether a closing brace ends the namespace that is being read: not the file. -/
def Stack.isBraced {p : Part} : Stack p → Bool
  | .file => false
  | _ => true

inductive Control (p : Part) where
  | run (task : Task p)
  /-- At the opening of a construct. -/
  | enter {q : Part} (construct : Construct q p)
  | give (value : p.Value)

/-- What a task does next: it goes on in the same part, or calls for another one. -/
inductive Move (p : Part) where
  | go (control : Control p) (rest : List Token)
  | call {q : Part} (frame : Frame q p) (task : Task q) (rest : List Token)

structure State where
  part : Part
  control : Control part
  stack : Stack part
  rest : List Token
  depth : Nat
  fault : Option Fault

/-! ## Turns -/

def usingMove (qualifier : Option String) (found : Contents) (ts : List Token) : Move .scope :=
  match aliasBehind ts with
  | some (name, rest) => .call (.aliasIn qualifier found name) .type rest
  | none =>
    if startsImport ts then
      .go (.run (.scope qualifier (found.addImport (readDottedName ts).1)))
        (skipOne ";" (readDottedName ts).2)
    else .go (.run (.scope qualifier found)) (skipMember 0 ts)

def namespaceMove (qualifier : Option String) (found : Contents) (ts : List Token) : Move .scope :=
  let (name, behind) := readDottedName ts
  let full := innerNamespace qualifier name
  if startsWith ";" behind then .go (.run (.scope (some full) found)) behind.tail
  else if startsWith "\x7b" behind then
    .go (.enter (.namespaceBody qualifier full found)) behind.tail
  else .go (.run (.scope qualifier found)) (skipMember 0 behind)

def scopeItemMove (qualifier : Option String) (found : Contents) (modifiers : List String) :
    List Token → Move .scope
  | [] => .go (.run (.scope qualifier found)) []
  | first :: more =>
    if startsDeclaration (first :: more) then
      .call (.typeIn qualifier found) (.declaration qualifier modifiers first.text) more
    else .go (.run (.scope qualifier found)) (skipMember 0 (first :: more))

def scopeMove (braced : Bool) (qualifier : Option String) (found : Contents) :
    List Token → Move .scope
  | [] => .go (.give found) []
  | t :: rest =>
    if t.isPunctuation "\x7d" then
      if braced then .go (.give found) rest else .go (.run (.scope qualifier found)) rest
    else if t.isPunctuation "[" then .go (.run (.scope qualifier found)) (skipBalanced (t :: rest))
    else if t.isWord "global" && startsWithWord "using" rest then
      .go (.run (.scope qualifier found)) rest
    else if t.isWord "using" then usingMove qualifier found rest
    else if t.isWord "namespace" then namespaceMove qualifier found rest
    else
      scopeItemMove qualifier found (readModifiers (t :: rest)).1 (readModifiers (t :: rest)).2

def basesMove (qualifier : Option String) (modifiers : List String) (name : Token)
    (kind : DeclarationKind) (typeParameters : List String) (ts : List Token) : Move .declaration :=
  if startsWith ":" ts then
    .call (.basesOf qualifier modifiers name kind typeParameters) (.bases []) ts.tail
  else .go (.run (.headed qualifier modifiers ⟨name, kind, typeParameters, []⟩)) ts

def declarationMove (qualifier : Option String) (modifiers : List String) (keyword : String)
    (ts : List Token) : Move .declaration :=
  match declarationKind keyword ts with
  | (some kind, name :: rest) =>
    if name.isIdentifier then
      basesMove qualifier modifiers name kind (readTypeParameterList rest).1
        (skipParameters (readTypeParameterList rest).2)
    else .go (.give none) (skipMember 0 (name :: rest))
  | (_, rest) => .go (.give none) (skipMember 0 rest)

/-- What is done behind the base list of a declaration: constraints are passed over, and the body
is entered if there is one. -/
def headedMove (qualifier : Option String) (modifiers : List String) (header : Header)
    (ts : List Token) : Move .declaration :=
  let rest := ts.dropWhile (!endsHead ·)
  if startsWith "\x7b" rest then .go (.enter (.typeBody qualifier modifiers header)) rest.tail
  else .go (.give (some (header.declare qualifier modifiers .empty))) (skipOne ";" rest)

def bodyItemMove (qualifier : Option String) (owner : Owner) (found : TypeBody)
    (modifiers : List String) : List Token → Move .body
  | [] => .go (.run (.body qualifier owner found)) []
  | first :: more =>
    if startsDeclaration (first :: more) then
      .call (.nestedIn qualifier owner found) (.declaration qualifier modifiers first.text) more
    else if first.isPunctuation "\x7d" then .go (.run (.body qualifier owner found)) (first :: more)
    else if startsUnlisted owner (first :: more) then
      .go (.run (.body qualifier owner found)) (skipMember 0 (first :: more))
    else .call (.memberIn qualifier owner found modifiers) .type (first :: more)

def bodyMove (qualifier : Option String) (owner : Owner) (found : TypeBody) :
    List Token → Move .body
  | [] => .go (.give found.inOrder) []
  | t :: rest =>
    if t.isPunctuation "\x7d" then .go (.give found.inOrder) rest
    else if t.isPunctuation ";" then .go (.run (.body qualifier owner found)) rest
    else if t.isPunctuation "[" then
      .go (.run (.body qualifier owner found)) (skipBalanced (t :: rest))
    else
      bodyItemMove qualifier owner found (readModifiers (t :: rest)).1 (readModifiers (t :: rest)).2

def typeMove (ts : List Token) : Move .type :=
  if startsWith "(" ts then
    .go (.give (some (.simple "ValueTuple"))) (skipSuffixes (skipBalanced ts))
  else
    match skipGlobal ts with
    | [] => .go (.give none) []
    | t :: rest =>
      if t.isIdentifier then .go (.run (.segments [t.text] [])) rest
      else .go (.give none) (t :: rest)

def segmentsMove (names : List String) (listed : List WrittenType) (ts : List Token) :
    Move .type :=
  if startsWith "<" ts then .go (.enter (.typeArguments names)) ts
  else .go (.run (.separator names listed)) ts

def separatorMove (names : List String) (listed : List WrittenType) (ts : List Token) :
    Move .type :=
  let ended := Move.go (.give (some (writtenType names listed))) (skipSuffixes ts)
  match ts with
  | separator :: name :: more =>
    if separator.isPunctuation "::" && name.isIdentifier then
      .go (.run (.segments [name.text] listed)) more
    else if separator.isPunctuation "." && name.isIdentifier then
      .go (.run (.segments (name.text :: names) [])) more
    else ended
  | _ => ended

def argumentsMove (found : List WrittenType) : List Token → Move .arguments
  | [] => .go (.give found.reverse) []
  | t :: rest =>
    if t.isPunctuation ">" then .go (.give found.reverse) rest
    else if t.isPunctuation "," then .go (.run (.arguments found)) rest
    else if t.isPunctuation ";" || t.isPunctuation "\x7b" || t.isPunctuation "\x7d" then
      .go (.give found.reverse) (t :: rest)
    else .call (.argumentIn found) .type (t :: rest)

def Task.move {p : Part} (braced : Bool) (ts : List Token) : Task p → Move p
  | .scope qualifier found => scopeMove braced qualifier found ts
  | .declaration qualifier modifiers keyword => declarationMove qualifier modifiers keyword ts
  | .headed qualifier modifiers header => headedMove qualifier modifiers header ts
  | .bases found => .call (.baseIn found) .type ts
  | .body qualifier owner found => bodyMove qualifier owner found ts
  | .type => typeMove ts
  | .segments names listed => segmentsMove names listed ts
  | .separator names listed => separatorMove names listed ts
  | .arguments found => argumentsMove found ts

/-! ## Entering and returning -/

namespace Construct

variable {p q : Part}

/-- What is read inside. -/
def task : Construct p q → Task p
  | .namespaceBody _ name found => .scope (some name) found
  | .typeBody qualifier _ header => .body qualifier ⟨header.name.text, header.kind⟩ .empty
  | .typeArguments _ => .arguments []

/-- The tokens behind the opening: a brace is taken before one enters, an angle bracket then. -/
def opened (ts : List Token) : Construct p q → List Token
  | .typeArguments _ => ts.tail
  | _ => ts

/-- How reading goes on where one cannot enter. -/
def refused : Construct p q → Control q
  | .namespaceBody outer _ found => .run (.scope outer found)
  | .typeBody qualifier modifiers header => .give (some (header.declare qualifier modifiers .empty))
  | .typeArguments _ => .give none

/-- How reading goes on outside. -/
def resume (ts : List Token) : Construct p q → p.Value → Control q × List Token
  | .namespaceBody outer _ _, found => (.run (.scope outer found), ts)
  | .typeBody qualifier modifiers header, body =>
    (.give (some (header.declare qualifier modifiers body)), skipOne ";" ts)
  | .typeArguments names, listed => (.run (.separator names listed), ts)

end Construct

/-- How reading goes on with what was called for. -/
def Frame.resume {p q : Part} (ts : List Token) : Frame p q → p.Value → Control q × List Token
  | .aliasIn qualifier found name, type? =>
    (.run (.scope qualifier (found.addAlias name type?)), skipMember 0 ts)
  | .typeIn qualifier found, declared => (.run (.scope qualifier (found.addType declared)), ts)
  | .basesOf qualifier modifiers name kind typeParameters, bases =>
    (.run (.headed qualifier modifiers ⟨name, kind, typeParameters, bases⟩), ts)
  | .nestedIn qualifier owner found, declared =>
    (.run (.body qualifier owner (found.addNested declared)), ts)
  | .memberIn qualifier owner found modifiers, type? =>
    let (members, rest) := readTypedMember owner modifiers type?.isSome ts
    (.run (.body qualifier owner (found.addMembers members)), rest)
  | .baseIn found, none => (.give found.reverse, ts)
  | .baseIn found, some base =>
    let rest := skipParameters ts
    if startsWith "," rest then (.run (.bases (base :: found)), rest.tail)
    else (.give (base :: found).reverse, rest)
  | .argumentIn found, some argument => (.run (.arguments (argument :: found)), ts)
  | .argumentIn found, none => (.run (.arguments found), ts.tail)

/-- One step. The fault that was found first is kept. -/
def step : State → Option State
  | ⟨_, .run task, stack, rest, depth, fault⟩ =>
    match task.move stack.isBraced rest with
    | .go control rest => some ⟨_, control, stack, rest, depth, fault⟩
    | .call frame task rest => some ⟨_, .run task, .called frame stack, rest, depth, fault⟩
  | ⟨_, .enter construct, stack, rest, depth, fault⟩ =>
    match Source.enter depth rest with
    | .ok inner =>
      some ⟨_, .run construct.task, .entered construct stack, construct.opened rest, inner, fault⟩
    | .error tooDeep => some ⟨_, construct.refused, stack, [], depth, fault.or (some tooDeep)⟩
  | ⟨_, .give value, .called frame outer, rest, depth, fault⟩ =>
    let (control, rest) := frame.resume rest value
    some ⟨_, control, outer, rest, depth, fault⟩
  | ⟨_, .give value, .entered construct outer, rest, depth, fault⟩ =>
    let (control, rest) := construct.resume rest value
    some ⟨_, control, outer, rest, depth - 1, fault⟩
  | ⟨_, .give _, .file, _, _, _⟩ => none

def start (ts : List Token) : State :=
  ⟨.scope, .run (.scope none .empty), .file, ts, 0, none⟩

def Leads : State → State → Prop :=
  Relation.ReflTransGen fun s s' => step s = some s'

/-- A step that leaves at least so many calls and constructs open. -/
def StepOver (height : Nat) (s s' : State) : Prop :=
  step s = some s' ∧ height ≤ s'.stack.height

def LeadsOver (height : Nat) : State → State → Prop :=
  Relation.ReflTransGen (StepOver height)

namespace LeadsOver

variable {height : Nat} {s t u : State}

theorem refl (s : State) : LeadsOver height s s :=
  Relation.ReflTransGen.refl

theorem trans (first : LeadsOver height s t) (second : LeadsOver height t u) :
    LeadsOver height s u :=
  Relation.ReflTransGen.trans first second

theorem head (taken : step s = some t) (above : height ≤ t.stack.height)
    (further : LeadsOver height t u) : LeadsOver height s u :=
  Relation.ReflTransGen.head ⟨taken, above⟩ further

theorem mono {lower : Nat} (lower_le : lower ≤ height) (leads : LeadsOver height s t) :
    LeadsOver lower s t :=
  Relation.ReflTransGen.mono (fun _ _ taken => ⟨taken.1, Nat.le_trans lower_le taken.2⟩) _ _ leads

theorem leads (above : LeadsOver height s t) : Leads s t :=
  Relation.ReflTransGen.mono (fun _ _ taken => taken.1) _ _ above

end LeadsOver

/-! ## What a step leaves -/

def Move.rest {p : Part} : Move p → List Token
  | .go _ rest | .call _ _ rest => rest

section

variable {braced : Bool} {p q : Part}

theorem rest_usingMove (qualifier : Option String) (found : Contents) (ts : List Token) :
    (usingMove qualifier found ts).rest <:+ ts := by
  rw [usingMove]
  split
  · next aliased => exact aliasBehind_suffix aliased
  · split
    · exact (skipOne_suffix _ _).trans (readDottedName_suffix ts)
    · exact skipMember_suffix 0 ts

theorem rest_namespaceMove (qualifier : Option String) (found : Contents) (ts : List Token) :
    (namespaceMove qualifier found ts).rest <:+ ts := by
  have dotted := readDottedName_suffix ts
  rw [namespaceMove]
  dsimp only
  split
  · exact (List.tail_suffix _).trans dotted
  · split
    · exact (List.tail_suffix _).trans dotted
    · exact (skipMember_suffix 0 _).trans dotted

theorem rest_scopeItemMove (qualifier : Option String) (found : Contents) (modifiers : List String)
    (ts : List Token) : (scopeItemMove qualifier found modifiers ts).rest <:+ ts := by
  cases ts with
  | nil => exact List.suffix_rfl
  | cons first more =>
    rw [scopeItemMove]
    split
    · exact List.suffix_cons first more
    · exact skipMember_suffix 0 _

theorem rest_scopeMove (qualifier : Option String) (found : Contents) (ts : List Token) :
    (scopeMove braced qualifier found ts).rest <:+ ts := by
  cases ts with
  | nil => exact List.suffix_rfl
  | cons t rest =>
    rw [scopeMove]
    split
    · split
      · exact List.suffix_cons t rest
      · exact List.suffix_cons t rest
    · split
      · exact skipBalanced_suffix _
      · split
        · exact List.suffix_cons t rest
        · split
          · exact cons_suffix (rest_usingMove ..)
          · split
            · exact cons_suffix (rest_namespaceMove ..)
            · exact (rest_scopeItemMove ..).trans (readModifiers_suffix _)

theorem rest_declarationMove (qualifier : Option String) (modifiers : List String)
    (keyword : String) (ts : List Token) :
    (declarationMove qualifier modifiers keyword ts).rest <:+ ts := by
  have kinded := declarationKind_suffix keyword ts
  rw [declarationMove]
  split
  · next kind name rest shape =>
    rw [shape] at kinded
    have listed : skipParameters (readTypeParameterList rest).2 <:+ ts :=
      (skipParameters_suffix _).trans <| (readTypeParameterList_suffix rest).trans <|
        (List.suffix_cons name rest).trans kinded
    split
    · rw [basesMove]
      split
      · exact (List.tail_suffix _).trans listed
      · exact listed
    · exact (skipMember_suffix 0 _).trans kinded
  · next rest _ shape =>
    rw [shape] at kinded
    exact (skipMember_suffix 0 rest).trans kinded

theorem rest_headedMove (qualifier : Option String) (modifiers : List String) (header : Header)
    (ts : List Token) : (headedMove qualifier modifiers header ts).rest <:+ ts := by
  have ended : ts.dropWhile (!endsHead ·) <:+ ts := List.dropWhile_suffix _
  rw [headedMove]
  split
  · exact (List.tail_suffix _).trans ended
  · exact (skipOne_suffix _ _).trans ended

theorem rest_bodyItemMove (qualifier : Option String) (owner : Owner) (found : TypeBody)
    (modifiers : List String) (ts : List Token) :
    (bodyItemMove qualifier owner found modifiers ts).rest <:+ ts := by
  cases ts with
  | nil => exact List.suffix_rfl
  | cons first more =>
    rw [bodyItemMove]
    split
    · exact List.suffix_cons first more
    · split
      · exact List.suffix_rfl
      · split
        · exact skipMember_suffix 0 _
        · exact List.suffix_rfl

theorem rest_bodyMove (qualifier : Option String) (owner : Owner) (found : TypeBody)
    (ts : List Token) : (bodyMove qualifier owner found ts).rest <:+ ts := by
  cases ts with
  | nil => exact List.suffix_rfl
  | cons t rest =>
    rw [bodyMove]
    split
    · exact List.suffix_cons t rest
    · split
      · exact List.suffix_cons t rest
      · split
        · exact skipBalanced_suffix _
        · exact (rest_bodyItemMove ..).trans (readModifiers_suffix _)

theorem rest_typeMove (ts : List Token) : (typeMove ts).rest <:+ ts := by
  have global := skipGlobal_suffix ts
  rw [typeMove]
  split
  · exact (skipSuffixes_suffix _).trans (skipBalanced_suffix ts)
  · split
    · exact List.nil_suffix
    · next t rest shape =>
      rw [shape] at global
      split
      · exact (List.suffix_cons t rest).trans global
      · exact global

theorem rest_segmentsMove (names : List String) (listed : List WrittenType) (ts : List Token) :
    (segmentsMove names listed ts).rest <:+ ts := by
  rw [segmentsMove]
  split
  · exact List.suffix_rfl
  · exact List.suffix_rfl

theorem rest_separatorMove (names : List String) (listed : List WrittenType) (ts : List Token) :
    (separatorMove names listed ts).rest <:+ ts := by
  unfold separatorMove
  dsimp only
  split
  · next separator name more =>
    have behind : more <:+ separator :: name :: more := cons_suffix (List.suffix_cons name more)
    split
    · exact behind
    · split
      · exact behind
      · exact skipSuffixes_suffix _
  · exact skipSuffixes_suffix _

theorem rest_argumentsMove (found : List WrittenType) (ts : List Token) :
    (argumentsMove found ts).rest <:+ ts := by
  cases ts with
  | nil => exact List.suffix_rfl
  | cons t rest =>
    rw [argumentsMove]
    split
    · exact List.suffix_cons t rest
    · split
      · exact List.suffix_cons t rest
      · split
        · exact List.suffix_rfl
        · exact List.suffix_rfl

theorem rest_move (braced : Bool) (task : Task p) (ts : List Token) :
    (task.move braced ts).rest <:+ ts := by
  cases task with
  | scope qualifier found => exact rest_scopeMove qualifier found ts
  | declaration => exact rest_declarationMove ..
  | headed => exact rest_headedMove ..
  | bases => exact List.suffix_rfl
  | body => exact rest_bodyMove ..
  | type => exact rest_typeMove ts
  | segments => exact rest_segmentsMove ..
  | separator => exact rest_separatorMove ..
  | arguments => exact rest_argumentsMove ..

theorem rest_resume_frame (frame : Frame p q) (value : p.Value) (ts : List Token) :
    (frame.resume ts value).2 <:+ ts := by
  cases frame with
  | aliasIn => exact skipMember_suffix 0 ts
  | memberIn => exact readTypedMember_suffix ..
  | baseIn found =>
    cases value with
    | none => exact List.suffix_rfl
    | some base =>
      rw [Frame.resume]
      split
      · exact (List.tail_suffix _).trans (skipParameters_suffix ts)
      · exact skipParameters_suffix ts
  | argumentIn found =>
    cases value with
    | none => exact List.tail_suffix ts
    | some argument => exact List.suffix_rfl
  | _ => exact List.suffix_rfl

theorem rest_resume_construct (construct : Construct p q) (value : p.Value) (ts : List Token) :
    (construct.resume ts value).2 <:+ ts := by
  cases construct with
  | typeBody => exact skipOne_suffix _ _
  | _ => exact List.suffix_rfl

theorem opened_suffix (construct : Construct p q) (ts : List Token) :
    construct.opened ts <:+ ts := by
  cases construct with
  | typeArguments => exact List.tail_suffix ts
  | _ => exact List.suffix_rfl

/-- Outside braces reading gives what it found only where no tokens are left. -/
theorem eq_nil_of_scopeMove {qualifier : Option String} {found value : Contents}
    {ts rest : List Token} (moves : scopeMove false qualifier found ts = .go (.give value) rest) :
    rest = [] := by
  cases ts with
  | nil =>
    cases moves
    rfl
  | cons t ts =>
    rw [scopeMove] at moves
    simp only [Bool.false_eq_true, ↓reduceIte, usingMove, namespaceMove] at moves
    generalize readModifiers (t :: ts) = modified at moves
    obtain ⟨modifiers, _ | ⟨first, more⟩⟩ := modified
    all_goals
      simp only [scopeItemMove] at moves
      repeat' split at moves
      all_goals cases moves

/-! ## What a step can do -/

/-- A step, with what it depends on. -/
inductive Turn : State → State → Prop where
  | go {p : Part} {task : Task p} {control : Control p} {stack : Stack p} {ts us : List Token}
    {depth : Nat} {fault : Option Fault} (moves : task.move stack.isBraced ts = .go control us) :
    Turn ⟨p, .run task, stack, ts, depth, fault⟩ ⟨p, control, stack, us, depth, fault⟩
  | call {p q : Part} {task : Task p} {frame : Frame q p} {callee : Task q} {stack : Stack p}
    {ts us : List Token} {depth : Nat} {fault : Option Fault}
    (moves : task.move stack.isBraced ts = .call frame callee us) :
    Turn ⟨p, .run task, stack, ts, depth, fault⟩
      ⟨q, .run callee, .called frame stack, us, depth, fault⟩
  | enter {p q : Part} (construct : Construct q p) (stack : Stack p) (ts : List Token) {depth : Nat}
    (fault : Option Fault) (room : depth < maxNesting) :
    Turn ⟨p, .enter construct, stack, ts, depth, fault⟩
      ⟨q, .run construct.task, .entered construct stack, construct.opened ts, depth + 1, fault⟩
  | refuse {p q : Part} (construct : Construct q p) (stack : Stack p) (ts : List Token)
    {depth : Nat} (fault : Option Fault) (tooDeep : Fault) (full : maxNesting ≤ depth) :
    Turn ⟨p, .enter construct, stack, ts, depth, fault⟩
      ⟨p, construct.refused, stack, [], depth, fault.or (some tooDeep)⟩
  | resume {p q : Part} (frame : Frame q p) (value : q.Value) (stack : Stack p) (ts : List Token)
    (depth : Nat) (fault : Option Fault) :
    Turn ⟨q, .give value, .called frame stack, ts, depth, fault⟩
      ⟨p, (frame.resume ts value).1, stack, (frame.resume ts value).2, depth, fault⟩
  | leave {p q : Part} (construct : Construct q p) (value : q.Value) (stack : Stack p)
    (ts : List Token) (depth : Nat) (fault : Option Fault) :
    Turn ⟨q, .give value, .entered construct stack, ts, depth, fault⟩
      ⟨p, (construct.resume ts value).1, stack, (construct.resume ts value).2, depth - 1, fault⟩

theorem turn_of_step {s s' : State} (taken : step s = some s') : Turn s s' := by
  obtain ⟨p, control, stack, ts, depth, fault⟩ := s
  cases control with
  | run task =>
    rw [step] at taken
    split at taken
    · next moves =>
      cases taken
      exact .go moves
    · next moves =>
      cases taken
      exact .call moves
  | enter construct =>
    rw [step] at taken
    by_cases full : maxNesting ≤ depth
    · cases ts with
      | nil =>
        rw [Source.enter, if_pos full] at taken
        cases taken
        exact .refuse construct stack [] fault _ full
      | cons t ts =>
        rw [Source.enter, if_pos full] at taken
        cases taken
        exact .refuse construct stack (t :: ts) fault _ full
    · rw [Source.enter.eq_def, if_neg full] at taken
      cases taken
      exact .enter construct stack ts fault (Nat.lt_of_not_le full)
  | give value =>
    cases stack with
    | file => cases taken
    | called frame outer =>
      cases taken
      exact .resume frame value outer ts depth fault
    | entered construct outer =>
      cases taken
      exact .leave construct value outer ts depth fault

/-! ## What holds at every step -/

def State.Enters (s : State) : Prop :=
  ∃ (p : Part) (construct : Construct p s.part), s.control = .enter construct

/-- What holds of every state of the reading of a text. -/
structure Sound (ts : List Token) (s : State) : Prop where
  /-- Tokens are taken in order from the front. -/
  rest : s.rest <:+ ts
  /-- The depth counts what has been entered and not been left. -/
  depth : s.depth = s.stack.level
  bounded : s.depth ≤ maxNesting
  /-- Behind a fault the rest of the file is abandoned. -/
  abandoned : s.fault.isSome → s.rest = []
  /-- The reading of the file ends only where no tokens are left. -/
  ended : ∀ found rest depth fault, s = ⟨.scope, .give found, .file, rest, depth, fault⟩ → rest = []

theorem sound_start (ts : List Token) : Sound ts (start ts) where
  rest := List.suffix_rfl
  depth := rfl
  bounded := Nat.zero_le _
  abandoned := nofun
  ended := nofun

/-- Resuming what waits in a namespace or file goes on reading it. -/
theorem resume_frame_ne_give (frame : Frame p .scope) (value : p.Value) (found : Contents)
    (ts : List Token) : (frame.resume ts value).1 ≠ .give found := by
  cases frame <;> nofun

theorem resume_construct_ne_give (construct : Construct p .scope) (value : p.Value)
    (found : Contents) (ts : List Token) : (construct.resume ts value).1 ≠ .give found := by
  cases construct
  nofun

theorem Turn.rest_suffix {s s' : State} (turn : Turn s s') : s'.rest <:+ s.rest := by
  cases turn with
  | @go p task control stack us rest depth fault moves =>
    have bound := rest_move stack.isBraced task us
    rwa [moves] at bound
  | @call p q task frame callee stack us rest depth fault moves =>
    have bound := rest_move stack.isBraced task us
    rwa [moves] at bound
  | enter construct => exact opened_suffix construct _
  | refuse => exact List.nil_suffix
  | resume frame value => exact rest_resume_frame frame value _
  | leave construct value => exact rest_resume_construct construct value _

theorem Turn.eq_nil_of_ended {s : State} {found : Contents} {rest : List Token} {depth : Nat}
    {fault : Option Fault} (turn : Turn s ⟨.scope, .give found, .file, rest, depth, fault⟩) :
    rest = [] := by
  generalize ended : (⟨.scope, .give found, .file, rest, depth, fault⟩ : State) = s' at turn
  cases turn with
  | @go p task _ _ _ _ _ _ moves =>
    cases ended
    cases task
    exact eq_nil_of_scopeMove moves
  | call => cases ended
  | enter => cases ended
  | refuse => exact (State.mk.inj ended).2.2.2.1
  | resume frame value =>
    obtain ⟨part, control, -⟩ := State.mk.inj ended
    subst part
    exact absurd (eq_of_heq control).symm (resume_frame_ne_give frame value found _)
  | leave construct value =>
    obtain ⟨part, control, -⟩ := State.mk.inj ended
    subst part
    exact absurd (eq_of_heq control).symm (resume_construct_ne_give construct value found _)

theorem Turn.depth_eq_level {s s' : State} (turn : Turn s s') (counted : s.depth = s.stack.level) :
    s'.depth = s'.stack.level := by
  cases turn with
  | enter => exact congrArg (· + 1) counted
  | leave => exact congrArg (· - 1) counted
  | _ => exact counted

theorem Turn.depth_le {s s' : State} (turn : Turn s s') (bounded : s.depth ≤ maxNesting) :
    s'.depth ≤ maxNesting := by
  cases turn with
  | enter _ _ _ _ room => exact room
  | leave => exact Nat.le_trans (Nat.sub_le _ _) bounded
  | _ => exact bounded

theorem Turn.eq_nil_of_fault {s s' : State} (turn : Turn s s')
    (abandoned : s.fault.isSome → s.rest = []) (faulty : s'.fault.isSome) : s'.rest = [] := by
  have none_left (faulty : s.fault.isSome) : s'.rest = [] :=
    List.eq_nil_of_suffix_nil (abandoned faulty ▸ turn.rest_suffix)
  cases turn with
  | refuse => rfl
  | _ => exact none_left faulty

theorem Sound.turn {ts : List Token} {s s' : State} (sound : Sound ts s) (turn : Turn s s') :
    Sound ts s' where
  rest := turn.rest_suffix.trans sound.rest
  depth := turn.depth_eq_level sound.depth
  bounded := turn.depth_le sound.bounded
  abandoned := turn.eq_nil_of_fault sound.abandoned
  ended := by
    rintro found rest depth fault rfl
    exact turn.eq_nil_of_ended

theorem Turn.keeps_fault {s s' : State} (turn : Turn s s') (faulty : s.fault.isSome) :
    s'.fault.isSome := by
  cases turn with
  | refuse construct stack ts fault tooDeep full => simp
  | _ => exact faulty

/-- A fault is recorded only at the opening of a construct at full depth. -/
theorem Turn.enters_of_fault {s s' : State} (turn : Turn s s') (faultless : s.fault = none)
    (faulty : s'.fault.isSome) : s.Enters ∧ maxNesting ≤ s.depth := by
  cases turn with
  | refuse construct stack ts fault tooDeep full => exact ⟨⟨_, construct, rfl⟩, full⟩
  | _ =>
    rw [faultless] at faulty
    cases faulty

/-- At the opening of a construct at full depth a fault is recorded. -/
theorem Turn.fault_of_enters {s s' : State} (turn : Turn s s') (enters : s.Enters)
    (full : maxNesting ≤ s.depth) : s'.fault.isSome := by
  obtain ⟨p, construct, control⟩ := enters
  cases turn with
  | enter _ _ _ _ room => exact absurd full (Nat.not_le.2 room)
  | refuse => simp
  | _ => cases control

/-! ## Runs -/

theorem Leads.rest_suffix {s s' : State} (leads : Leads s s') : s'.rest <:+ s.rest := by
  induction leads with
  | refl => exact List.suffix_rfl
  | tail _ taken ih => exact (turn_of_step taken).rest_suffix.trans ih

theorem Sound.leads {ts : List Token} {s s' : State} (sound : Sound ts s) (leads : Leads s s') :
    Sound ts s' := by
  induction leads with
  | refl => exact sound
  | tail _ taken ih => exact ih.turn (turn_of_step taken)

theorem Leads.keeps_fault {s s' : State} (leads : Leads s s') (faulty : s.fault.isSome) :
    s'.fault.isSome := by
  induction leads with
  | refl => exact faulty
  | tail _ taken ih => exact (turn_of_step taken).keeps_fault ih

/-- A fault that was not there before goes back to a construct that was entered at full depth. -/
theorem Leads.exists_enters {s s' : State} (leads : Leads s s') (faultless : s.fault = none)
    (faulty : s'.fault.isSome) : ∃ t, Leads s t ∧ t.Enters ∧ maxNesting ≤ t.depth := by
  induction leads with
  | refl =>
    rw [faultless] at faulty
    cases faulty
  | @tail t u reached taken ih =>
    cases before : t.fault with
    | none =>
      obtain ⟨enters, full⟩ := (turn_of_step taken).enters_of_fault before faulty
      exact ⟨t, reached, enters, full⟩
    | some tooDeep => exact ih (by rw [before]; rfl)

/-- There is only one run, so what has been reached leads on to where it ends. -/
theorem Leads.to_end {s t ended : State} (leads : Leads s ended) (stops : step ended = none)
    (reached : Leads s t) : Leads t ended := by
  induction reached with
  | refl => exact leads
  | @tail t u _ taken ih =>
    rcases Relation.ReflTransGen.cases_head ih with rfl | ⟨next, first, further⟩
    · rw [stops] at taken
      cases taken
    · rw [taken] at first
      cases first
      exact further

end

end ConventionLint.Source.Machine
