import ConventionLint.Proofs.Source.DeclarationRoundTrip
import ConventionLint.Proofs.Source.WrittenText

/-!
# Scanning written files

Scanning undoes writing: the file comes back as it was, up to the places of its declarations, when
namespaces, type bodies and type arguments nest within the limit. A file that nests deeper is not
scanned at all; in no case is anything left out.
-/
namespace ConventionLint

namespace Source

open Lexeme

section

variable {depth n : Nat} {ts mid : List Token} {qualifier : Option String} {braced : Bool}
  {found : Contents} {P : Contents × List Token → Prop}

theorem readDotted_spelled {names : List String} (some : names ≠ [])
    (spelled : Spells (dotted names) ts mid) (ended : startsWith "." mid = false) :
    readDotted ts = (names, mid) := by
  induction names generalizing ts with
  | nil => exact absurd rfl some
  | cons name names ih =>
    simp only [dotted, spells_cons, word] at spelled
    obtain ⟨p, us, rfl, spelled⟩ := spelled
    cases names with
    | nil =>
      obtain rfl := spells_nil.1 spelled
      rcases us with _ | ⟨dot, _ | ⟨next, rest⟩⟩
      · simp [readDotted]
      · simp [readDotted]
      · rw [startsWith_cons] at ended
        simp [readDotted, ended]
    | cons next names =>
      rw [List.flatMap_cons, List.cons_append, spells_cons] at spelled
      obtain ⟨q, vs, rfl, spelled⟩ := spelled
      have later := ih (by simp) spelled
      obtain ⟨r, ws, rfl, -⟩ := spells_cons.1 spelled
      rw [readDotted, later]
      simp [mark]

theorem readDottedName_spelled {name : String}
    (spelled : Spells (dotted (Text.segments name)) ts mid)
    (ended : startsWithMark [".", "::"] mid = false) : readDottedName ts = (name, mid) := by
  simp only [startsWithMark, List.any_cons, List.any_nil, Bool.or_false,
    Bool.or_eq_false_iff] at ended
  rw [readDottedName, skipGlobal_spelled (Text.segments_ne_nil name) spelled ended.2,
    readDotted_spelled (Text.segments_ne_nil name) spelled ended.1]
  simp only [Text.intercalate_segments]

/-- Behind a word that opens a directive. -/
theorem namespaceOf_using {rest : List Token} {p : Position} :
    namespaceOf depth qualifier braced found (⟨.identifier, "using", p⟩ :: rest) = (do
      let (found, rest) ← usingOf depth found rest
      namespaceOf depth qualifier braced found rest) := by
  rw [namespaceOf_cons, if_neg (by simp), if_neg (by simp), if_neg (by simp), if_pos (by simp)]

theorem dotted_segments (name : String) : ∃ first more,
    Text.segments name = first :: more ∧
      dotted (Text.segments name)
        = word first :: more.flatMap fun name => [mark ".", word name] := by
  obtain ⟨first, more, shape⟩ := List.exists_cons_of_ne_nil (Text.segments_ne_nil name)
  exact ⟨first, more, shape, by rw [shape, dotted]⟩

theorem ne_empty_of_isDottedName {name : String} (named : isDottedName name = true) :
    name ≠ "" := by
  rintro rfl
  exact absurd named (by decide)

theorem usingOf_import {name : String} (named : isDottedName name = true)
    (spelled : Spells (dotted (Text.segments name) ++ [mark ";"]) ts mid) :
    usingOf depth found ts = .ok (⟨name :: found.imports, found.aliases, found.types⟩, mid) := by
  obtain ⟨us, dotted_spelled, ended⟩ := spells_append.1 spelled
  obtain ⟨p, vs, rfl, behind⟩ := spells_cons.1 ended
  obtain rfl := spells_nil.1 behind
  have read := readDottedName_spelled dotted_spelled (by simp [startsWithMark, mark])
  obtain ⟨first, more, shape, starts⟩ := dotted_segments name
  have dynamic : first ≠ "static" := by
    rw [isDottedName, shape, List.all_cons, Bool.and_eq_true] at named
    exact ne_of_isName named.1 (by decide)
  have unaliased : aliasBehind ts = none := by
    have unequal := startsWith_tail_of_dotted (Text.segments_ne_nil name) dotted_spelled
      (show "=" ≠ "." by simp) (by simp [mark])
    rcases ts with _ | ⟨t, _ | ⟨equals, rest⟩⟩
    · rfl
    · rfl
    · rw [List.tail_cons, startsWith_cons] at unequal
      simp [aliasBehind, unequal]
  have imported : startsImport ts = true := by
    rw [starts] at dotted_spelled
    obtain ⟨q, ws, rfl, -⟩ := spells_cons.1 dotted_spelled
    simp [startsImport, word, dynamic]
  rw [usingOf_eq, unaliased]
  dsimp only
  rw [if_pos imported, read]
  simp [skipOne, mark, Contents.addImport, ne_empty_of_isDottedName named]

/-- Imports are added to what was read. -/
theorem namespaceOf_imports {names : List String} (found : Contents)
    (named : names.all isDottedName = true)
    (spelled : Spells (names.flatMap SourceFile.importLexemes) ts mid)
    (behind : Outcome depth n (namespaceOf depth qualifier braced
      ⟨names.reverse ++ found.imports, found.aliases, found.types⟩ mid) P) :
    Outcome depth n (namespaceOf depth qualifier braced found ts) P := by
  induction names generalizing ts found with
  | nil =>
    obtain rfl := spells_nil.1 spelled
    exact behind
  | cons name names ih =>
    rw [List.all_cons, Bool.and_eq_true] at named
    rw [List.flatMap_cons] at spelled
    obtain ⟨us, first, others⟩ := spells_append.1 spelled
    obtain ⟨p, vs, rfl, directive⟩ := spells_cons.1 first
    rw [List.reverse_cons, List.append_assoc] at behind
    have later := ih ⟨name :: found.imports, found.aliases, found.types⟩ named.2 others behind
    refine namespaceOf_using ▸ ?_
    rw [usingOf_import named.1 directive]
    exact later

theorem usingOf_alias {a : UsingAlias} (shallow : depth ≤ maxNesting)
    (spelled : Spells (word a.name :: mark "=" :: (a.target.lexemes ++ [mark ";"])) ts mid) :
    Outcome depth a.target.nesting (usingOf depth found ts)
      (· = (⟨found.imports, a :: found.aliases, found.types⟩, mid)) := by
  obtain ⟨p, us, rfl, behind⟩ := spells_cons.1 spelled
  obtain ⟨q, vs, rfl, target⟩ := spells_cons.1 behind
  obtain ⟨ws, typed, ended⟩ := spells_append.1 target
  obtain ⟨r, xs, rfl, rest⟩ := spells_cons.1 ended
  obtain rfl := spells_nil.1 rest
  have aliased : aliasBehind (⟨.identifier, a.name, p⟩ :: ⟨.punctuation, "=", q⟩ :: vs) =
      some (a.name, vs) := by
    simp [aliasBehind]
  rw [usingOf_eq]
  simp only [word, mark, aliased]
  refine Outcome.map shallow (typeOf_spelled shallow typed (endsType_mark (by simp [mark]))) ?_
  rintro _ rfl
  exact ⟨_, rfl, by simp [Contents.addAlias, skipMember, mark]⟩

theorem namespaceOf_aliases {aliases : List UsingAlias} (found : Contents)
    (shallow : depth ≤ maxNesting)
    (spelled : Spells (aliases.flatMap (·.lexemes)) ts mid)
    (behind : Outcome depth n (namespaceOf depth qualifier braced
      ⟨found.imports, aliases.reverse ++ found.aliases, found.types⟩ mid) P) :
    Outcome depth (max ((aliases.map (·.target.nesting)).foldr max 0) n)
      (namespaceOf depth qualifier braced found ts) P := by
  induction aliases generalizing ts found with
  | nil =>
    obtain rfl := spells_nil.1 spelled
    simpa using behind
  | cons a aliases ih =>
    rw [List.flatMap_cons] at spelled
    obtain ⟨us, first, others⟩ := spells_append.1 spelled
    obtain ⟨p, vs, rfl, directive⟩ := spells_cons.1 first
    rw [List.reverse_cons, List.append_assoc] at behind
    have later := ih ⟨found.imports, a :: found.aliases, found.types⟩ others behind
    rw [List.map_cons, List.foldr_cons, Nat.max_assoc]
    refine namespaceOf_using ▸ ?_
    refine Outcome.bind (usingOf_alias shallow directive) ?_
    rintro _ rfl
    exact later

theorem namespaceOf_declaration {style : AccessorStyle} {d : TypeDeclaration} (found : Contents)
    (writable : d.isWritable = true) (shallow : depth ≤ maxNesting)
    (spelled : Spells (d.lexemes style) ts mid) (anew : startsAnew mid = true)
    (behind : ∀ read : TypeDeclaration, read.unplaced = d.unplaced →
      Outcome depth n (namespaceOf depth d.qualifier braced (found.addType (some read)) mid) P) :
    Outcome depth (max d.nesting n) (namespaceOf depth d.qualifier braced found ts) P := by
  obtain ⟨modifiers, keyword, p, us, modified, starts, read⟩ :=
    declaration_spelled style writable shallow spelled anew
  obtain ⟨first, more, begins, free⟩ := declaration_lexemes_starts style d
  rw [begins] at spelled
  obtain ⟨q, vs, rfl, -⟩ := spells_cons.1 spelled
  simp only [List.mem_cons, List.not_mem_nil, or_false, not_or] at free
  rw [namespaceOf_cons, if_neg (by simp [word]), if_neg (by simp [word]),
    if_neg (by simp [word, free]), if_neg (by simp [word, free]), if_neg (by simp [word, free]),
    modified, namespaceItemOf, if_neg (by simp), if_pos starts]
  refine Outcome.bind read ?_
  rintro _ ⟨inner, rfl, same⟩
  exact behind inner same

def Adds (d : TypeDeclaration) (found : Contents) (rest : List Token)
    (body : Contents × List Token) : Prop :=
  ∃ read : TypeDeclaration, read.unplaced = d.unplaced ∧ body = (found.addType (some read), rest)

/-- A namespace with one declaration in it. -/
theorem namespaceOf_block {style : AccessorStyle} {d : TypeDeclaration} {name : String}
    (found : Contents) (placed : d.qualifier = some name) (writable : d.isWritable = true)
    (shallow : depth ≤ maxNesting)
    (spelled : Spells (word "namespace" :: (dotted (Text.segments name) ++ mark "\x7b" ::
      (d.lexemes style ++ [mark "\x7d"]))) ts mid)
    (behind : ∀ read : TypeDeclaration, read.unplaced = d.unplaced →
      Outcome depth n (namespaceOf depth none braced (found.addType (some read)) mid) P) :
    Outcome depth (max (d.nesting + 1) n) (namespaceOf depth none braced found ts) P := by
  obtain ⟨p, us, rfl, named⟩ := spells_cons.1 spelled
  obtain ⟨vs, dotted_spelled, block⟩ := spells_append.1 named
  have read := readDottedName_spelled dotted_spelled
    (by simp [startsWithMark, startsWith_of_spells_mark block])
  obtain ⟨q, ws, rfl, inside⟩ := spells_cons.1 block
  obtain ⟨xs, declared, closed⟩ := spells_append.1 inside
  obtain ⟨r, ys, rfl, ended⟩ := spells_cons.1 closed
  obtain rfl := spells_nil.1 ended
  rw [namespaceOf_cons, if_neg (by simp [word]), if_neg (by simp [word]), if_neg (by simp [word]),
    if_neg (by simp [word]), if_pos (by simp [word]), namespaceBehind, read]
  dsimp only
  rw [if_neg (by simp [mark]), if_pos (by simp [mark]), List.tail_cons, ← bind_assoc]
  refine Outcome.bind (P := Adds d found ys) (Outcome.enter shallow fun shallow => ?_) ?_
  · rw [show some (innerNamespace none name) = d.qualifier from placed.symm,
      ← Nat.max_zero d.nesting]
    refine namespaceOf_declaration found writable shallow declared
      (by simp [startsAnew, startsWithMark, startsWith_of_spells_mark closed]) fun read same => ?_
    rw [namespaceOf_cons, if_pos (by simp [mark]), if_pos rfl]
    exact .ok shallow ⟨read, same, rfl⟩
  · rintro _ ⟨read, same, rfl⟩
    exact behind read same

theorem placed_lexemes_starts (style : AccessorStyle) (d : TypeDeclaration) :
    ∃ first more, d.lexemesInNamespace style = word first :: more := by
  rw [TypeDeclaration.lexemesInNamespace]
  cases d.qualifier with
  | none =>
    obtain ⟨first, more, starts, -⟩ := declaration_lexemes_starts style d
    exact ⟨first, more, starts⟩
  | some qualifier => exact ⟨_, _, rfl⟩

def AddsAll (ds : List TypeDeclaration) (found : Contents) (body : Contents × List Token) : Prop :=
  ∃ read : List TypeDeclaration, read.map (·.unplaced) = ds.map (·.unplaced) ∧
    body.1 = ⟨found.imports, found.aliases, read.reverse ++ found.types⟩

theorem namespaceOf_types {style : AccessorStyle} {ds : List TypeDeclaration} (found : Contents)
    (writable : ds.all (·.isWritableInNamespace) = true) (shallow : depth ≤ maxNesting)
    (spelled : Spells (ds.flatMap (·.lexemesInNamespace style)) ts []) :
    Outcome depth ((ds.map (·.nestingInNamespace)).foldr max 0)
      (namespaceOf depth none braced found ts) (AddsAll ds found) := by
  induction ds generalizing ts found with
  | nil =>
    obtain rfl := spells_nil.1 spelled
    rw [namespaceOf_nil]
    exact .ok shallow ⟨[], rfl, rfl⟩
  | cons d ds ih =>
    rw [List.all_cons, Bool.and_eq_true, TypeDeclaration.isWritableInNamespace,
      Bool.and_eq_true] at writable
    rw [List.flatMap_cons] at spelled
    obtain ⟨mid, first, others⟩ := spells_append.1 spelled
    have anew : startsAnew mid = true := by
      cases ds with
      | nil =>
        obtain rfl := spells_nil.1 others
        rfl
      | cons next ds =>
        obtain ⟨first, more, starts⟩ := placed_lexemes_starts style next
        rw [List.flatMap_cons, starts] at others
        exact startsAnew_of_spells_word others
    have later (read : TypeDeclaration) (same : read.unplaced = d.unplaced) :
        Outcome depth ((ds.map (·.nestingInNamespace)).foldr max 0)
          (namespaceOf depth none braced (found.addType (some read)) mid)
          (AddsAll (d :: ds) found) := by
      refine (ih (found.addType (some read)) writable.2 others).mono ?_
      rintro ⟨body, left⟩ ⟨further, sames, shape⟩
      refine ⟨read :: further, by simp [same, sames], shape.trans ?_⟩
      simp [Contents.addType]
    rw [TypeDeclaration.lexemesInNamespace] at first
    rw [List.map_cons, List.foldr_cons, TypeDeclaration.nestingInNamespace]
    cases placed : d.qualifier with
    | none =>
      rw [placed] at first
      have whole := namespaceOf_declaration found writable.1.1 shallow first anew (placed ▸ later)
      rwa [placed] at whole
    | some name =>
      rw [placed] at first
      exact namespaceOf_block found placed writable.1.1 shallow first later

theorem dropRepeats_of_isChain {l : List String} (distinct : l.IsChain (· ≠ ·)) :
    Text.dropRepeats l = l := by
  induction l with
  | nil => rfl
  | cons a l ih =>
    cases l with
    | nil => rfl
    | cons b l =>
      rw [List.isChain_cons_cons] at distinct
      rw [Text.dropRepeats, if_neg distinct.1, ih distinct.2]

/-- The tokens of a written file are read as the file. -/
theorem readFile_spelled (style : AccessorStyle) {f : SourceFile} (writable : f.isWritable = true)
    (spelled : Spells (f.lexemes style) ts []) :
    Outcome 0 f.nesting (readFile f.path ts) fun read => read.unplaced = f.unplaced := by
  simp only [SourceFile.isWritable, Bool.and_eq_true, decide_eq_true_eq] at writable
  obtain ⟨⟨⟨imports, distinct⟩, aliases⟩, types⟩ := writable
  obtain ⟨us, imports_spelled, behind⟩ := spells_append.1 spelled
  obtain ⟨vs, aliases_spelled, types_spelled⟩ := spells_append.1 behind
  rw [readFile_eq]
  have shallow : 0 ≤ maxNesting := Nat.zero_le _
  refine Outcome.map shallow (namespaceOf_imports .empty imports imports_spelled
    (namespaceOf_aliases _ shallow aliases_spelled (namespaceOf_types _ types shallow types_spelled))) ?_
  rintro ⟨_, left⟩ ⟨read, same, rfl⟩
  refine ⟨_, rfl, ?_⟩
  simp only [SourceFile.unplaced, unplacedAll_eq_map]
  simp [Contents.empty, dropRepeats_of_isChain distinct, same]

end

end Source

/-- What becomes of a written file: the tokens it is cut into are those that it was written with. -/
theorem SourceFile.scan_outcome (style : AccessorStyle) {f : SourceFile}
    (writable : f.isWritable = true) :
    Source.Outcome 0 f.nesting (SourceFile.scan f.path (f.written style))
      fun read => read.unplaced = f.unplaced := by
  obtain ⟨ts, lexed, spelled⟩ := Source.tokens_of_written style writable
  rw [SourceFile.scan, lexed]
  exact Source.readFile_spelled style writable spelled

theorem SourceFile.exists_scan (style : AccessorStyle) {f : SourceFile}
    (writable : f.isWritable = true) (shallow : f.nesting ≤ Source.maxNesting) :
    ∃ read, SourceFile.scan f.path (f.written style) = .ok read ∧ read.unplaced = f.unplaced :=
  (scan_outcome style writable).within (by omega)

/-- Scanning undoes writing, and what nests too deep is not scanned. -/
theorem SourceFile.scan_written (style : AccessorStyle) (f : SourceFile)
    (writable : f.isWritable = true) :
    (f.nesting ≤ Source.maxNesting →
      (SourceFile.scan f.path (f.written style)).map (·.unplaced) = .ok f.unplaced) ∧
    (Source.maxNesting < f.nesting → ∃ fault,
      SourceFile.scan f.path (f.written style) = .error fault ∧
        fault.cause = .nestedTooDeeply) := by
  constructor
  · intro shallow
    obtain ⟨read, run, same⟩ := exists_scan style writable shallow
    rw [run, Except.map, same]
  · intro deep
    exact (scan_outcome style writable).beyond (by omega)

/-- A type with arguments that nest as deep as wanted. -/
def WrittenType.tower : Nat → WrittenType
  | 0 => .simple "T"
  | n + 1 => ⟨none, "T", [tower n]⟩

theorem WrittenType.nesting_tower (n : Nat) : (tower n).nesting = n := by
  induction n with
  | zero => rfl
  | succ n ih => rw [tower, nesting, ih, nestingAll, Nat.max_zero]

theorem WrittenType.isWritable_tower (n : Nat) : (tower n).isWritable = true := by
  induction n with
  | zero => decide
  | succ n ih =>
    rw [tower, isWritable, isWritableAll, ih]
    decide

/-- A partial class in a namespace, with bases, a property and a nested record. -/
def SourceFile.orders : SourceFile where
  path := ⟨"Orders.cs"⟩
  imports := ["Shop.Messaging"]
  aliases := [⟨"Base", ⟨some "Shop", "UseCase", [.simple "AddOrder"]⟩⟩]
  types :=
    [⟨"PlaceOrder", .plainClass, some "Shop.Orders", ["T"], [.simple "Base"],
      [⟨"Id", .property (some ⟨.privateAccess, false⟩) true, .publicAccess, .start⟩,
       ⟨"Execute", .method, .protectedInternal, .start⟩],
      [⟨"Line", .recordStruct, some "Shop.Orders", [], [], [⟨"count", .field, .privateAccess, .start⟩],
        [], .start, false⟩], .start, true⟩]

/-- A file whose only alias nests one level too deep. -/
def SourceFile.tooDeep : SourceFile :=
  ⟨⟨"Deep.cs"⟩, [], [⟨"Base", .tower 129⟩], []⟩

theorem SourceFile.scan_written_orders :
    orders.isWritable = true ∧
    (SourceFile.scan orders.path (orders.written .plain)).map (·.unplaced) = .ok orders.unplaced ∧
    tooDeep.isWritable = true ∧
    ∃ fault, SourceFile.scan tooDeep.path (tooDeep.written .plain) = .error fault ∧
      fault.cause = .nestedTooDeeply := by
  have writable : orders.isWritable = true := by decide
  have deep_writable : tooDeep.isWritable = true := by
    simp [isWritable, tooDeep, UsingAlias.isWritable, WrittenType.isWritable_tower]
    decide
  have nesting : tooDeep.nesting = 129 := by
    simp [SourceFile.nesting, tooDeep, WrittenType.nesting_tower]
  exact ⟨writable, (scan_written .plain orders writable).1 (by decide), deep_writable,
    (scan_written .plain tooDeep deep_writable).2 (by rw [nesting]; decide)⟩

end ConventionLint
