import ConventionLint.Source.FileReading

/-!
# Readers as plain functions

The readers carry proofs that they leave no more tokens than they got. What they find does not depend
on these proofs: here each reader is a function to a value and the tokens left, with the equation
that it satisfies.
-/
namespace ConventionLint.Source

def plain {α : Type} {ts : List Token} (result : Except Fault (Reading α ts)) :
    Except Fault (α × List Token) :=
  result.map fun r => (r.value, r.rest)

section

variable {α : Type} {ts us : List Token}

@[simp] theorem plain_ok (r : Reading α ts) : plain (.ok r) = .ok (r.value, r.rest) := rfl

@[simp] theorem plain_bind_lift (result : Except Fault (Reading α us)) (h : us.length ≤ ts.length) :
    plain (do return (← result).lift h : Except Fault (Reading α ts)) = plain result := by
  cases result <;> rfl

end

def typeOf (depth : Nat) (ts : List Token) : Except Fault (Option WrittenType × List Token) :=
  (readType depth ts).map fun r => (r.type?, r.rest)

def segmentsOf (depth : Nat) (segments : List String) (arguments : List WrittenType)
    (ts : List Token) : Except Fault (WrittenType × List Token) :=
  plain (readSegments depth segments arguments ts)

def argumentsOf (depth : Nat) (found : List WrittenType) (ts : List Token) :
    Except Fault (List WrittenType × List Token) :=
  plain (readArguments depth found ts)

def basesOf (depth : Nat) (found : List WrittenType) (ts : List Token) :
    Except Fault (List WrittenType × List Token) :=
  plain (readBases depth found ts)

def headerOf (depth : Nat) (keyword : String) (ts : List Token) :
    Except Fault (Option Header × List Token) :=
  plain (readHeader depth keyword ts)

def declarationOf (depth : Nat) (qualifier : Option String) (modifiers : List String)
    (keyword : String) (ts : List Token) : Except Fault (Option TypeDeclaration × List Token) :=
  plain (readDeclaration depth qualifier modifiers keyword ts)

def bodyOf (depth : Nat) (qualifier : Option String) (owner : Owner) (found : TypeBody)
    (ts : List Token) : Except Fault (TypeBody × List Token) :=
  plain (readBody depth qualifier owner found ts)

def usingOf (depth : Nat) (found : Contents) (ts : List Token) :
    Except Fault (Contents × List Token) :=
  plain (readUsing depth found ts)

def namespaceOf (depth : Nat) (qualifier : Option String) (braced : Bool) (found : Contents)
    (ts : List Token) : Except Fault (Contents × List Token) :=
  plain (readNamespace depth qualifier braced found ts)

section

variable {depth : Nat} {ts : List Token}

theorem typeOf_eq : typeOf depth ts =
    if startsWith "(" ts then .ok (some (.simple "ValueTuple"), skipSuffixes (skipBalanced ts))
    else
      match skipGlobal ts with
      | [] => .ok (none, [])
      | t :: rest =>
        if t.isIdentifier then do
          let (type, rest) ← segmentsOf depth [t.text] [] rest
          return (some type, rest)
        else .ok (none, t :: rest) := by
  rw [typeOf, readType]
  split
  · rfl
  · split
    · next none =>
      conv => rhs; rw [none]
      rfl
    · next t rest named =>
      conv => rhs; rw [named]
      dsimp only
      split
      · rw [segmentsOf]
        cases readSegments depth [t.text] [] rest <;> rfl
      · rfl

/-- The arguments that are opened here, or those read before. -/
def argumentListOf (depth : Nat) (arguments : List WrittenType) (ts : List Token) :
    Except Fault (List WrittenType × List Token) :=
  if startsWith "<" ts then do
    let inner ← enter depth ts
    argumentsOf inner [] ts.tail
  else .ok (arguments, ts)

theorem segmentsOf_eq {segments : List String} {arguments : List WrittenType} :
    segmentsOf depth segments arguments ts = (do
      let (arguments, rest) ← argumentListOf depth arguments ts
      match rest with
      | separator :: name :: more =>
        if separator.isPunctuation "::" && name.isIdentifier then
          segmentsOf depth [name.text] arguments more
        else if separator.isPunctuation "." && name.isIdentifier then
          segmentsOf depth (name.text :: segments) [] more
        else .ok (writtenType segments arguments, skipSuffixes rest)
      | _ => .ok (writtenType segments arguments, skipSuffixes rest)) := by
  rw [segmentsOf, readSegments, argumentListOf]
  split
  · cases enter depth ts with
    | error fault => rfl
    | ok inner =>
      dsimp only [bind, Except.bind, argumentsOf]
      cases readArguments inner [] ts.tail with
      | error fault => rfl
      | ok read =>
        obtain ⟨found, rest, bound⟩ := read
        rcases rest with _ | ⟨separator, _ | ⟨name, more⟩⟩
        · rfl
        · rfl
        · have shorter : more.length ≤ ts.length := by
            simp only [List.length_cons, List.length_tail] at bound
            omega
          dsimp only [pure, Except.pure, Reading.lift, plain_ok]
          split
          · exact plain_bind_lift _ shorter
          · split
            · exact plain_bind_lift _ shorter
            · rfl
  · rcases ts with _ | ⟨separator, _ | ⟨name, more⟩⟩
    · rfl
    · rfl
    · dsimp only [pure, Except.pure, bind, Except.bind]
      split
      · exact plain_bind_lift _ _
      · split
        · exact plain_bind_lift _ _
        · rfl

theorem argumentsOf_nil {found : List WrittenType} :
    argumentsOf depth found [] = .ok (found.reverse, []) := by
  rw [argumentsOf, readArguments]
  rfl

theorem argumentsOf_cons {found : List WrittenType} {t : Token} {rest : List Token} :
    argumentsOf depth found (t :: rest) =
      if t.isPunctuation ">" then .ok (found.reverse, rest)
      else if t.isPunctuation "," then argumentsOf depth found rest
      else if t.isPunctuation ";" || t.isPunctuation "\x7b" || t.isPunctuation "\x7d" then
        .ok (found.reverse, t :: rest)
      else (do
        let (type?, rest) ← typeOf depth (t :: rest)
        match type? with
        | some argument => argumentsOf depth (argument :: found) rest
        | none => argumentsOf depth found rest.tail) := by
  rw [argumentsOf, readArguments]
  split
  · rfl
  · split
    · exact plain_bind_lift _ _
    · split
      · rfl
      · rw [typeOf]
        cases readType depth (t :: rest) with
        | error fault => rfl
        | ok read =>
          obtain ⟨_ | argument, left, bound, shorter⟩ := read
          · have bound : left.tail.length ≤ (t :: rest).length :=
              Nat.le_trans (tail_length left) bound
            exact plain_bind_lift _ bound
          · exact plain_bind_lift _ bound

theorem basesOf_eq {found : List WrittenType} : basesOf depth found ts = (do
    let (type?, rest) ← typeOf depth ts
    match type? with
    | none => return (found.reverse, rest)
    | some base =>
      if startsWith "," (skipParameters rest) then
        basesOf depth (base :: found) (skipParameters rest).tail
      else return ((base :: found).reverse, skipParameters rest)) := by
  rw [basesOf, readBases, typeOf]
  cases readType depth ts with
  | error fault => rfl
  | ok read =>
    obtain ⟨_ | base, rest, bound, shorter⟩ := read
    · rfl
    · dsimp only [bind, Except.bind, Except.map]
      split
      · exact plain_bind_lift _ _
      · rfl

/-- The base list that is opened here, if one is. -/
def baseListOf (depth : Nat) (ts : List Token) : Except Fault (List WrittenType × List Token) :=
  if startsWith ":" ts then basesOf depth [] ts.tail else .ok ([], ts)

theorem headerOf_eq {keyword : String} : headerOf depth keyword ts =
    match declarationKind keyword ts with
    | (some kind, name :: rest) =>
      if name.isIdentifier then (do
        let listed := readTypeParameterList rest
        let (bases, rest) ← baseListOf depth (skipParameters listed.2)
        return (some ⟨name, kind, listed.1, bases⟩, rest.dropWhile (!endsHead ·)))
      else .ok (none, skipMember 0 (name :: rest))
    | (_, rest) => .ok (none, skipMember 0 rest) := by
  rw [headerOf, readHeader]
  dsimp only
  split
  · next kind name rest is_kind named =>
    have kinded : declarationKind keyword ts = (some kind, name :: rest) :=
      Prod.ext is_kind named
    conv => rhs; rw [kinded]
    dsimp only
    split
    · rw [baseListOf]
      split
      · rw [basesOf]
        cases readBases depth [] (skipParameters (readTypeParameterList rest).2).tail <;> rfl
      · rfl
    · rw [plain_ok]
      dsimp only
      rw [named]
  · next other =>
    split
    · next kind name rest kinded =>
      exact absurd (congrArg Prod.snd kinded) (other kind name rest (congrArg Prod.fst kinded))
    · next rest _ kinded =>
      rw [plain_ok]
      dsimp only
      rw [kinded]

/-- Behind its modifiers an accessor is read by its keyword. -/
theorem readAccessors_cons {property : Accessibility} {found : Accessors} {t : Token}
    {rest : List Token} : readAccessors property found (t :: rest) =
      if t.isPunctuation "\x7d" then (found, rest)
      else if t.isPunctuation "[" then readAccessors property found (skipBalanced (t :: rest))
      else
        match (readModifiers (t :: rest)).2 with
        | [] => (found, [])
        | keyword :: body =>
          if keyword.isIdentifier then
            readAccessors property
              (found.add keyword.text
                ((Accessibility.ofModifiers (readModifiers (t :: rest)).1).getD property)
                (skipAccessorBody body).1) (skipAccessorBody body).2
          else readAccessors property found body := by
  rw [readAccessors]
  split
  · rfl
  · split
    · rfl
    · dsimp only
      split
      · next behind =>
        conv => rhs; rw [behind]
      · next behind =>
        conv => rhs; rw [behind]

theorem readMemberName_eq {name : Token} : readMemberName name ts =
    match if startsWith "<" ts then skipAngles 0 ts else ts with
    | dot :: next :: rest =>
      if dot.isPunctuation "." && next.isIdentifier then readMemberName next rest
      else (name, startsWith "<" ts && !dot.isPunctuation ".", dot :: next :: rest)
    | rest => (name, startsWith "<" ts && !startsWith "." rest, rest) := by
  rw [readMemberName]
  split
  · next dot next rest shape =>
    conv => rhs; rw [shape]
    dsimp only
    rw [shape]
  · next other =>
    generalize (if startsWith "<" ts then skipAngles 0 ts else ts) = behind at other ⊢
    split
    · exact absurd rfl (other _ _ _)
    · rfl

theorem readMember_eq {owner : Owner} {modifiers : List String} :
    readMember owner depth modifiers ts =
      if ts.isEmpty || startsWith "\x7d" ts then .ok ([], ts)
      else if startsUnlisted owner ts then .ok ([], skipMember 0 ts)
      else (do
        let (type?, rest) ← typeOf depth ts
        return readTypedMember owner modifiers type?.isSome rest) := by
  rw [readMember, typeOf]
  cases readType depth ts <;> rfl

theorem declarationOf_eq {qualifier : Option String} {modifiers : List String} {keyword : String} :
    declarationOf depth qualifier modifiers keyword ts = (do
      let (header?, rest) ← headerOf depth keyword ts
      match header? with
      | none => return (none, rest)
      | some header =>
        if startsWith "\x7b" rest then
          let inner ← enter depth rest.tail
          let (body, rest) ← bodyOf inner qualifier ⟨header.name.text, header.kind⟩ .empty rest.tail
          return (some (header.declare qualifier modifiers body), skipOne ";" rest)
        else return (some (header.declare qualifier modifiers .empty), skipOne ";" rest)) := by
  rw [declarationOf, readDeclaration, headerOf]
  cases readHeader depth keyword ts with
  | error fault => rfl
  | ok head =>
    obtain ⟨_ | header, rest, bound⟩ := head
    · rfl
    · dsimp only [bind, Except.bind, plain_ok]
      split
      · cases enter depth rest.tail with
        | error fault => rfl
        | ok inner =>
          dsimp only [bodyOf]
          cases readBody inner qualifier ⟨header.name.text, header.kind⟩ .empty rest.tail <;> rfl
      · rfl

variable {qualifier : Option String}

theorem bodyOf_nil {owner : Owner} {found : TypeBody} :
    bodyOf depth qualifier owner found [] = .ok (found.inOrder, []) := by
  rw [bodyOf, readBody]
  rfl

/-- Behind its modifiers a nested declaration or a member is read, or the body ends. -/
def bodyItemOf (depth : Nat) (qualifier : Option String) (owner : Owner) (found : TypeBody)
    (modifiers : List String) (ts : List Token) : Except Fault (TypeBody × List Token) :=
  match ts with
  | [] => .ok (found.inOrder, [])
  | first :: more =>
    if first.isPunctuation "\x7d" then .ok (found.inOrder, more)
    else if startsDeclaration (first :: more) then do
      let (nested, rest) ← declarationOf depth qualifier modifiers first.text more
      bodyOf depth qualifier owner (found.addNested nested) rest
    else do
      let (members, rest) ← readMember owner depth modifiers (first :: more)
      bodyOf depth qualifier owner (found.addMembers members) rest

theorem bodyOf_cons {owner : Owner} {found : TypeBody} {t : Token} {rest : List Token} :
    bodyOf depth qualifier owner found (t :: rest) =
      if t.isPunctuation "\x7d" then .ok (found.inOrder, rest)
      else if t.isPunctuation ";" then bodyOf depth qualifier owner found rest
      else if t.isPunctuation "[" then
        bodyOf depth qualifier owner found (skipBalanced (t :: rest))
      else
        bodyItemOf depth qualifier owner found (readModifiers (t :: rest)).1
          (readModifiers (t :: rest)).2 := by
  rw [bodyOf, readBody]
  split
  · rfl
  · split
    · exact plain_bind_lift _ _
    · split
      · have bound : (skipBalanced (t :: rest)).length ≤ (t :: rest).length :=
          Nat.le_succ_of_le (skipBalanced_cons_length t rest)
        exact plain_bind_lift _ bound
      · dsimp only
        split
        · next behind =>
          conv => rhs; rw [behind]
          rfl
        · next first more behind =>
          have first_length : more.length ≤ rest.length := readModifiers_cons_length behind
          conv => rhs; rw [behind, bodyItemOf]
          split
          · rfl
          · split
            · rw [declarationOf]
              cases readDeclaration depth qualifier (readModifiers (t :: rest)).1 first.text more with
              | error fault => rfl
              | ok declared =>
                have bound : declared.rest.length ≤ (t :: rest).length :=
                  Nat.le_succ_of_le (Nat.le_trans declared.bound first_length)
                exact plain_bind_lift _ bound
            · next ended _ =>
              split
              · next fault read =>
                conv => rhs; rw [read]
                rfl
              · next members left read =>
                have bound : left.length ≤ (t :: rest).length := Nat.le_succ_of_le <|
                  Nat.le_trans (readMember_shorter read (eq_false_of_ne_true ended)) first_length
                conv => rhs; rw [read]
                exact plain_bind_lift _ bound

theorem usingOf_eq {found : Contents} : usingOf depth found ts =
    match aliasBehind ts with
    | some (name, rest) => (do
      let (type?, rest) ← typeOf depth rest
      return (found.addAlias name type?, skipMember 0 rest))
    | none =>
      if startsImport ts then
        .ok (found.addImport (readDottedName ts).1, skipOne ";" (readDottedName ts).2)
      else .ok (found, skipMember 0 ts) := by
  rw [usingOf, readUsing]
  split
  · next name rest aliased =>
    conv => rhs; rw [aliased]
    dsimp only [typeOf]
    cases readType depth rest <;> rfl
  · next aliased =>
    conv => rhs; rw [aliased]
    split <;> rfl

variable {braced : Bool} {found : Contents}

theorem namespaceOf_nil : namespaceOf depth qualifier braced found [] = .ok (found, []) := by
  rw [namespaceOf, readNamespace]
  rfl

def namespaceBehind (depth : Nat) (qualifier : Option String) (braced : Bool) (found : Contents)
    (ts : List Token) : Except Fault (Contents × List Token) :=
  let (name, behind) := readDottedName ts
  let full := innerNamespace qualifier name
  if startsWith ";" behind then namespaceOf depth (some full) braced found behind.tail
  else if startsWith "\x7b" behind then do
    let inner ← enter depth behind.tail
    let (body, rest) ← namespaceOf inner (some full) true found behind.tail
    namespaceOf depth qualifier braced body rest
  else namespaceOf depth qualifier braced found (skipMember 0 behind)

/-- Behind its modifiers a declaration is read, or the namespace ends. -/
def namespaceItemOf (depth : Nat) (qualifier : Option String) (braced : Bool) (found : Contents)
    (modifiers : List String) (ts : List Token) : Except Fault (Contents × List Token) :=
  match ts with
  | [] => .ok (found, [])
  | first :: more =>
    if first.isPunctuation "\x7d" then
      if braced then .ok (found, more) else namespaceOf depth qualifier braced found more
    else if startsDeclaration (first :: more) then do
      let (type?, rest) ← declarationOf depth qualifier modifiers first.text more
      namespaceOf depth qualifier braced (found.addType type?) rest
    else namespaceOf depth qualifier braced found (skipMember 0 (first :: more))

theorem namespaceOf_cons {t : Token} {rest : List Token} :
    namespaceOf depth qualifier braced found (t :: rest) =
      if t.isPunctuation "\x7d" then
        if braced then .ok (found, rest) else namespaceOf depth qualifier braced found rest
      else if t.isPunctuation "[" then
        namespaceOf depth qualifier braced found (skipBalanced (t :: rest))
      else if t.isWord "global" && startsWithWord "using" rest then
        namespaceOf depth qualifier braced found rest
      else if t.isWord "using" then (do
        let (found, rest) ← usingOf depth found rest
        namespaceOf depth qualifier braced found rest)
      else if t.isWord "namespace" then namespaceBehind depth qualifier braced found rest
      else
        namespaceItemOf depth qualifier braced found (readModifiers (t :: rest)).1
          (readModifiers (t :: rest)).2 := by
  rw [namespaceOf, readNamespace]
  split
  · split
    · rfl
    · exact plain_bind_lift _ _
  · split
    · have bound : (skipBalanced (t :: rest)).length ≤ (t :: rest).length :=
        Nat.le_succ_of_le (skipBalanced_cons_length t rest)
      exact plain_bind_lift _ bound
    · split
      · exact plain_bind_lift _ _
      · split
        · rw [usingOf]
          cases readUsing depth found rest with
          | error fault => rfl
          | ok read =>
            have bound : read.rest.length ≤ (t :: rest).length := Nat.le_succ_of_le read.bound
            exact plain_bind_lift _ bound
        · split
          · rw [namespaceBehind]
            split
            · next name behind named =>
              have named_length := length_of_readDottedName named
              have inner_length : behind.tail.length ≤ (t :: rest).length :=
                Nat.le_succ_of_le (Nat.le_trans (tail_length behind) named_length)
              conv => rhs; rw [named]
              dsimp only
              split
              · exact plain_bind_lift _ inner_length
              · split
                · cases enter depth behind.tail with
                  | error fault => rfl
                  | ok inner =>
                    dsimp only [bind, Except.bind]
                    rw [namespaceOf]
                    cases readNamespace inner (some (innerNamespace qualifier name)) true found
                      behind.tail with
                    | error fault => rfl
                    | ok body =>
                      exact plain_bind_lift _ (Nat.le_trans body.bound inner_length)
                · have bound : (skipMember 0 behind).length ≤ (t :: rest).length :=
                    Nat.le_succ_of_le (Nat.le_trans (skipMember_length _ _) named_length)
                  exact plain_bind_lift _ bound
          · dsimp only
            split
            · next behind =>
              conv => rhs; rw [behind]
              rfl
            · next first more behind =>
              have first_length : more.length ≤ rest.length := readModifiers_cons_length behind
              conv => rhs; rw [behind, namespaceItemOf]
              split
              · split
                · rfl
                · exact plain_bind_lift _ (Nat.le_succ_of_le first_length)
              · split
                · rw [declarationOf]
                  cases readDeclaration depth qualifier (readModifiers (t :: rest)).1 first.text
                    more with
                  | error fault => rfl
                  | ok declared =>
                    have bound : declared.rest.length ≤ (t :: rest).length :=
                      Nat.le_succ_of_le (Nat.le_trans declared.bound first_length)
                    exact plain_bind_lift _ bound
                · next ended _ =>
                  have bound : (skipMember 0 (first :: more)).length ≤ (t :: rest).length :=
                    Nat.le_succ_of_le <| Nat.le_trans
                      (skipMember_shorter more (eq_false_of_ne_true ended)) first_length
                  exact plain_bind_lift _ bound

theorem readFile_eq {path : Path} : readFile path ts = (do
    let (found, _) ← namespaceOf 0 none false .empty ts
    return ⟨path, Text.dropRepeats found.imports.reverse, found.aliases.reverse,
      found.types.reverse⟩) := by
  rw [readFile, namespaceOf]
  cases readNamespace 0 none false .empty ts <;> rfl

end

end ConventionLint.Source
