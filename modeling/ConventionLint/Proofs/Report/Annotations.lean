import ConventionLint.Proofs.Report.Markup
import ConventionLint.Report.BuildServer

/-!
# Reading annotations

The reader here knows the grammar of workflow commands and nothing of reports: a command is a line,
its properties end at the next pair of colons and are split at commas, and characters of the grammar
may be written with a percent sign. Since a report writes all texts as they are, it is read back if
and only if no text in it has a part that means something to the grammar.
-/
namespace ConventionLint

namespace Report.Workflow

/-- What may stand behind a percent sign, and the character that it stands for. -/
abbrev EscapeTable := List ((Char × Char) × Char)

def dataEscapes : EscapeTable :=
  [(('0', 'D'), '\r'), (('0', 'A'), '\n'), (('2', '5'), '%')]

def valueEscapes : EscapeTable :=
  dataEscapes ++ [(('3', 'A'), ':'), (('2', 'C'), ',')]

/-- Decodes the escapes of a table. Any other percent sign is one. -/
def unescape (table : EscapeTable) : List Char → List Char
  | '%' :: a :: b :: rest =>
    match table.lookup (a, b) with
    | some c => c :: unescape table rest
    | none => '%' :: unescape table (a :: b :: rest)
  | c :: rest => c :: unescape table rest
  | [] => []

/-- What stands before and after the first pair of colons. -/
def cutColons : List Char → Option (List Char × List Char)
  | ':' :: ':' :: rest => some ([], rest)
  | c :: rest => (cutColons rest).map fun (before, after) => (c :: before, after)
  | [] => none

structure Notice where
  level : List Char
  properties : List (List Char × List Char)
  data : List Char
deriving DecidableEq

def readProperty (piece : List Char) : Option (List Char × List Char) :=
  (Text.cutFirst '=' piece).map fun (key, value) => (key, unescape valueEscapes value)

def readCommand : List Char → Option Notice
  | ':' :: ':' :: body => do
    let (head, data) ← cutColons body
    let (level, list) ← Text.cutFirst ' ' head
    let properties ← (Text.splitAtEach ',' list).mapM readProperty
    return ⟨level, properties, unescape dataEscapes data⟩
  | _ => none

def readCommands (s : List Char) : List (Option Notice) :=
  (Text.splitLines s).map readCommand

def NoEscape (table : EscapeTable) (s : List Char) : Prop :=
  ∀ e ∈ table, ¬ ['%', e.1.1, e.1.2] <:+: s

instance (table : EscapeTable) (s : List Char) : Decidable (NoEscape table s) :=
  inferInstanceAs (Decidable (∀ e ∈ table, ¬ ['%', e.1.1, e.1.2] <:+: s))

variable {table : EscapeTable} {c : Char} {s t front behind : List Char}

theorem length_unescape_le (table : EscapeTable) (s : List Char) :
    (unescape table s).length ≤ s.length := by
  fun_induction unescape table s with
  | case1 a b rest c found ih => exact Nat.succ_le_succ (Nat.le_trans ih (Nat.le_add_right _ 2))
  | case2 a b rest none ih => exact Nat.succ_le_succ ih
  | case3 c rest other ih => exact Nat.succ_le_succ ih
  | case4 => exact Nat.le_refl 0

/-- Decoding shortens a text unless it leaves the text alone. -/
theorem unescape_of_length (kept : s.length ≤ (unescape table s).length) :
    unescape table s = s := by
  fun_induction unescape table s with
  | case1 a b rest c found ih =>
    have := length_unescape_le table rest
    simp only [List.length_cons] at kept
    omega
  | case2 a b rest none ih => rw [ih (Nat.le_of_succ_le_succ kept)]
  | case3 c rest other ih => rw [ih (Nat.le_of_succ_le_succ kept)]
  | case4 => rfl

theorem noEscape_cons : NoEscape table (c :: s) ↔
    (∀ e ∈ table, ¬ ['%', e.1.1, e.1.2] <+: c :: s) ∧ NoEscape table s := by
  simp only [NoEscape, List.infix_cons_iff, not_or, forall_and]

theorem noEscape_of_notMem (plain : '%' ∉ s) : NoEscape table s :=
  fun _ _ inside => plain (inside.subset List.mem_cons_self)

theorem unescape_eq_self_iff : unescape table s = s ↔ NoEscape table s := by
  fun_induction unescape table s with
  | case1 a b rest c found ih =>
    have shorter := length_unescape_le table rest
    refine iff_of_false (fun same => ?_) fun plain => ?_
    · have := congrArg List.length same
      simp only [List.length_cons] at this
      omega
    · obtain ⟨before, after, parts, -⟩ := List.lookup_eq_some_iff.1 found
      have listed : ((a, b), c) ∈ table := by simp [parts]
      exact plain _ listed (List.prefix_append ['%', a, b] rest).isInfix
  | case2 a b rest none ih =>
    rw [noEscape_cons, ← ih, List.cons.injEq, eq_self, true_and, iff_and_self]
    intro _ e listed start
    have apart : ((a, b) != e.1) = true := List.lookup_eq_none_iff.1 none e listed
    have same : e.1.1 = a ∧ e.1.2 = b := by simpa [List.cons_prefix_cons] using start
    simp [← same.1, ← same.2] at apart
  | case3 c rest other ih =>
    rw [noEscape_cons, ← ih, List.cons.injEq, eq_self, true_and, iff_and_self]
    rintro _ e listed ⟨behind, parts⟩
    obtain ⟨rfl, rest⟩ := List.cons.inj parts
    exact other _ _ _ rfl rest.symm
  | case4 => simp [NoEscape]

theorem colons_infix_cons : [':', ':'] <:+: c :: s ↔
    (c = ':' ∧ s.head? = some ':') ∨ [':', ':'] <:+: s := by
  rw [List.infix_cons_iff]
  cases s <;> simp [List.cons_prefix_cons, @eq_comm _ ':' _]

theorem colons_infix_append (other : c ≠ ':') :
    [':', ':'] <:+: s ++ c :: t ↔ [':', ':'] <:+: s ∨ [':', ':'] <:+: t := by
  induction s with
  | nil => simp [colons_infix_cons, other]
  | cons d s ih =>
    have next : (s ++ c :: t).head? = some ':' ↔ s.head? = some ':' := by
      cases s <;> simp [other]
    rw [List.cons_append, colons_infix_cons, colons_infix_cons, ih, next, or_assoc]

theorem head?_append_colon (s t : List Char) :
    (s ++ ':' :: t).head? = (s ++ [':']).head? := by
  cases s <;> rfl

/-- A text is cut where a pair of colons ends that is the first one. -/
theorem cutColons_eq_some_iff : cutColons s = some (front, behind) ↔
    s = front ++ ':' :: ':' :: behind ∧ ¬ [':', ':'] <:+: front ++ [':'] := by
  fun_induction cutColons s generalizing front with
  | case1 rest =>
    refine ⟨?_, fun ⟨parts, first⟩ => ?_⟩
    · rintro ⟨⟩
      exact ⟨rfl, by decide⟩
    · cases front with
      | nil =>
        cases parts
        rfl
      | cons d front =>
        obtain ⟨rfl, inner⟩ : ':' = d ∧ ':' :: rest = front ++ ':' :: ':' :: behind :=
          List.cons.inj parts
        have next : (front ++ [':']).head? = some ':' := by
          rw [← head?_append_colon, ← inner]
          rfl
        exact absurd (colons_infix_cons.2 (.inl ⟨rfl, next⟩)) first
  | case2 c rest other ih =>
    have apart : ¬ (c = ':' ∧ rest.head? = some ':') := by
      rintro ⟨rfl, next⟩
      cases rest with
      | nil => cases next
      | cons d rest =>
        cases next
        exact other _ rfl rfl
    rw [Option.map_eq_some_iff]
    refine ⟨?_, fun ⟨parts, first⟩ => ?_⟩
    · rintro ⟨⟨before, after⟩, cut, same⟩
      cases same
      obtain ⟨rfl, first⟩ := ih.1 cut
      rw [head?_append_colon] at apart
      exact ⟨rfl, colons_infix_cons.not.2 (not_or.2 ⟨apart, first⟩)⟩
    · cases front with
      | nil =>
        obtain ⟨rfl, rfl⟩ := List.cons.inj parts
        exact absurd ⟨rfl, rfl⟩ apart
      | cons d front =>
        obtain ⟨rfl, inner⟩ := List.cons.inj parts
        have further : ¬ [':', ':'] <:+: front ++ [':'] :=
          fun inside => first (colons_infix_cons.2 (.inr inside))
        exact ⟨(front, behind), ih.2 ⟨inner, further⟩, rfl⟩
  | case3 => simp

theorem not_colons_infix (plain : ':' ∉ s) : ¬ [':', ':'] <:+: s :=
  fun inside => plain (inside.subset List.mem_cons_self)

def propertyText (p : List Char × List Char) : List Char :=
  p.1 ++ '=' :: p.2

variable {p : List Char × List Char} {properties : List (List Char × List Char)}
  {pieces : List (List Char)}

theorem readProperty_propertyText (key : '=' ∉ p.1) :
    readProperty (propertyText p) = some (p.1, unescape valueEscapes p.2) := by
  rw [readProperty, propertyText, Text.cutFirst_append key, Option.map_some]

/-- What is read off a text of the same length is what the text was written from. -/
theorem propertyText_of_read (read : readProperty s = some p) :
    (propertyText p).length ≤ s.length ∧
    (s.length ≤ (propertyText p).length → s = propertyText p) := by
  obtain ⟨⟨key, value⟩, cut, rfl⟩ := Option.map_eq_some_iff.1 read
  obtain rfl := Text.eq_of_cutFirst cut
  have shorter := length_unescape_le valueEscapes value
  simp only [propertyText, List.length_append, List.length_cons]
  refine ⟨by omega, fun kept => ?_⟩
  rw [unescape_of_length (by omega)]

theorem mapM_readProperty_iff (keys : ∀ p ∈ properties, '=' ∉ p.1) :
    (properties.map propertyText).mapM readProperty = some properties ↔
      ∀ p ∈ properties, NoEscape valueEscapes p.2 := by
  induction properties with
  | nil => simp
  | cons p properties ih =>
    rw [List.forall_mem_cons] at keys ⊢
    rw [List.map_cons, List.mapM_cons, readProperty_propertyText keys.1, ← ih keys.2,
      ← unescape_eq_self_iff, Option.bind_eq_bind, Option.bind_some]
    cases (properties.map propertyText).mapM readProperty with
    | none => simp
    | some further => simp [Prod.ext_iff]

/-- Properties with a comma in front of each. -/
def written (pieces : List (List Char)) : List Char :=
  pieces.flatMap (',' :: ·)

/-- As long a list of properties is read off no other pieces than those it was written as. -/
theorem map_propertyText_of_read (read : pieces.mapM readProperty = some properties) :
    (written (properties.map propertyText)).length ≤ (written pieces).length ∧
    ((written pieces).length ≤ (written (properties.map propertyText)).length →
      pieces = properties.map propertyText) := by
  induction pieces generalizing properties with
  | nil =>
    cases read
    exact ⟨Nat.le_refl 0, fun _ => rfl⟩
  | cons piece pieces ih =>
    rw [List.mapM_cons, Option.bind_eq_bind, Option.bind_eq_some_iff] at read
    obtain ⟨p, first, read⟩ := read
    rw [Option.bind_eq_bind, Option.bind_eq_some_iff] at read
    obtain ⟨further, others, same⟩ := read
    cases same
    obtain ⟨short, kept⟩ := propertyText_of_read first
    obtain ⟨shorter, keptOthers⟩ := ih others
    simp only [written, List.map_cons, List.flatMap_cons, List.length_append,
      List.length_cons] at shorter keptOthers ⊢
    refine ⟨by omega, fun long => ?_⟩
    rw [kept (by omega), keptOthers (by omega)]

/-- Properties with commas between them. -/
def listText (properties : List (List Char × List Char)) : List Char :=
  Text.joinWith ',' (properties.map propertyText)

theorem pieces_of_read (nonempty : properties ≠ [])
    (read : (Text.splitAtEach ',' s).mapM readProperty = some properties) :
    (listText properties).length ≤ s.length ∧
    (s.length ≤ (listText properties).length →
      Text.splitAtEach ',' s = properties.map propertyText) := by
  obtain ⟨short, kept⟩ := map_propertyText_of_read read
  have whole : ',' :: s = written (Text.splitAtEach ',' s) := by
    rw [written, ← Text.cons_joinWith (Text.splitAtEach_ne_nil ',' s), Text.joinWith_splitAtEach]
  have list : ',' :: listText properties = written (properties.map propertyText) :=
    Text.cons_joinWith (List.map_eq_nil_iff.not.2 nonempty) ','
  rw [← whole, ← list, List.length_cons, List.length_cons] at short kept
  exact ⟨by omega, fun long => kept (by omega)⟩

namespace Notice

variable {a : Notice}

def head (a : Notice) : List Char :=
  a.level ++ ' ' :: listText a.properties

/-- A command written without escapes. -/
def text (a : Notice) : List Char :=
  ':' :: ':' :: (a.head ++ ':' :: ':' :: a.data)

/-- The level and the keys are names. -/
structure IsKeyed (a : Notice) : Prop where
  level : ' ' ∉ a.level
  nonempty : a.properties ≠ []
  equals : ∀ p ∈ a.properties, '=' ∉ p.1
  comma : ∀ p ∈ a.properties, ',' ∉ p.1

/-- No part of what is written means something else than itself. -/
structure IsPlain (a : Notice) : Prop where
  colons : ¬ [':', ':'] <:+: a.head ++ [':']
  comma : ∀ p ∈ a.properties, ',' ∉ p.2
  values : ∀ p ∈ a.properties, NoEscape valueEscapes p.2
  data : NoEscape dataEscapes a.data

theorem readCommand_eq_some_iff {body : List Char} :
    readCommand (':' :: ':' :: body) = some a ↔
      ∃ head data list, cutColons body = some (head, data) ∧
        Text.cutFirst ' ' head = some (a.level, list) ∧
        (Text.splitAtEach ',' list).mapM readProperty = some a.properties ∧
        unescape dataEscapes data = a.data := by
  simp only [readCommand, Option.bind_eq_bind, Option.bind_eq_some_iff, Option.pure_def,
    Option.some.injEq, Prod.exists]
  constructor
  · rintro ⟨head, data, cut, level, list, named, properties, listed, rfl⟩
    exact ⟨head, data, list, cut, named, listed, rfl⟩
  · rintro ⟨head, data, list, cut, named, listed, decoded⟩
    exact ⟨head, data, cut, a.level, list, named, a.properties, listed, by rw [decoded]⟩

/-- What is decoded is no longer than what it was decoded from. So where a command reads as what it
was written from, its parts have the lengths they had, and nothing was decoded. -/
theorem isPlain_of_read (keyed : a.IsKeyed) (read : readCommand a.text = some a) : a.IsPlain := by
  obtain ⟨head, data, list, cut, named, listed, decoded⟩ := readCommand_eq_some_iff.1 read
  obtain ⟨parts, first⟩ := cutColons_eq_some_iff.1 cut
  obtain rfl := Text.eq_of_cutFirst named
  obtain ⟨short, kept⟩ := pieces_of_read keyed.nonempty listed
  have lengths := congrArg List.length parts
  have shorter := decoded ▸ length_unescape_le dataEscapes data
  simp only [Notice.head, List.length_append, List.length_cons] at lengths
  have pieces := kept (by omega)
  have same : list = listText a.properties := by
    rw [listText, ← pieces, Text.joinWith_splitAtEach]
  subst same
  obtain rfl : a.data = data := by simpa using (List.append_inj parts rfl).2
  rw [pieces, mapM_readProperty_iff keyed.equals] at listed
  refine ⟨first, fun p member inside => ?_, listed, unescape_eq_self_iff.1 decoded⟩
  have piece : propertyText p ∈ Text.splitAtEach ',' (listText a.properties) :=
    pieces ▸ List.mem_map_of_mem member
  refine Text.notMem_of_mem_splitAtEach piece ?_
  simp [propertyText, inside]

theorem read_of_isPlain (keyed : a.IsKeyed) (plain : a.IsPlain) : readCommand a.text = some a := by
  have parted : ∀ s ∈ a.properties.map propertyText, ',' ∉ s := by
    intro s piece
    obtain ⟨p, member, rfl⟩ := List.mem_map.1 piece
    simp [propertyText, keyed.comma p member, plain.comma p member]
  have pieces : Text.splitAtEach ',' (listText a.properties) = a.properties.map propertyText :=
    Text.splitAtEach_joinWith (List.map_eq_nil_iff.not.2 keyed.nonempty) parted
  refine readCommand_eq_some_iff.2 ⟨a.head, a.data, listText a.properties,
    cutColons_eq_some_iff.2 ⟨rfl, plain.colons⟩, Text.cutFirst_append keyed.level _, ?_,
    unescape_eq_self_iff.2 plain.data⟩
  rw [pieces, mapM_readProperty_iff keyed.equals]
  exact plain.values

end Notice

open Notice

/-- What the command for a diagnostic is meant to say. -/
def noticeOf (d : Diagnostic) : Notice where
  level := d.severity.text.toList
  properties := [("file".toList, d.location.file.text.toList),
    ("line".toList, d.location.line.repr.toList), ("col".toList, d.location.column.repr.toList),
    ("title".toList, d.code.toList)]
  data := d.message.toList

/-- No text of a diagnostic has a part that means something to the grammar of commands. -/
structure IsPlain (d : Diagnostic) : Prop where
  lines : ∀ s ∈ [d.location.file.text, d.code, d.message], '\n' ∉ s.toList
  commas : ∀ s ∈ [d.location.file.text, d.code], ',' ∉ s.toList
  escapes : ∀ s ∈ [d.location.file.text, d.code], NoEscape valueEscapes s.toList
  fileColons : ¬ [':', ':'] <:+: d.location.file.text.toList
  codeColons : ¬ [':', ':'] <:+: d.code.toList ++ [':']
  message : NoEscape dataEscapes d.message.toList

variable {d : Diagnostic}

theorem toList_command (d : Diagnostic) : (command d).toList = (noticeOf d).text ++ ['\n'] := by
  unfold command
  simp [noticeOf, Notice.text, Notice.head, listText, Text.joinWith, propertyText]

theorem isKeyed_noticeOf (d : Diagnostic) : (noticeOf d).IsKeyed where
  level := by cases h : d.severity <;> simp [noticeOf, h, Severity.text]
  nonempty := List.cons_ne_nil _ _
  equals := by simp [noticeOf]
  comma := by simp [noticeOf]

theorem notMem_repr {c : Char} (other : c.isDigit = false) (n : Nat) : c ∉ n.repr.toList :=
  fun inside => by simp [Xml.isDigit_of_mem_repr inside] at other

theorem head_noticeOf (d : Diagnostic) : (noticeOf d).head =
    d.severity.text.toList ++ ' ' :: ("file".toList ++ '=' :: (d.location.file.text.toList ++
      ',' :: ("line".toList ++ '=' :: (d.location.line.repr.toList ++
        ',' :: ("col".toList ++ '=' :: (d.location.column.repr.toList ++
          ',' :: ("title".toList ++ '=' :: d.code.toList))))))) := by
  simp [noticeOf, Notice.head, listText, Text.joinWith, propertyText]

theorem newline_mem_text_iff : '\n' ∈ (noticeOf d).text ↔
    ∃ s ∈ [d.location.file.text, d.code, d.message], '\n' ∈ s.toList := by
  have level : '\n' ∉ d.severity.text.toList := by cases d.severity <;> decide
  have number (n : Nat) : '\n' ∉ Nat.toDigits 10 n := Nat.toList_repr ▸ notMem_repr (by decide) n
  rw [Notice.text, head_noticeOf]
  simp [level, number, noticeOf]

theorem colons_infix_head_iff : [':', ':'] <:+: (noticeOf d).head ++ [':'] ↔
    [':', ':'] <:+: d.location.file.text.toList ∨ [':', ':'] <:+: d.code.toList ++ [':'] := by
  have level : ¬ [':', ':'] <:+: d.severity.text.toList :=
    not_colons_infix (by cases d.severity <;> decide)
  have number (n : Nat) : ¬ [':', ':'] <:+: n.repr.toList :=
    not_colons_infix (notMem_repr (by decide) n)
  have keys : ∀ key ∈ ["file", "line", "col", "title"], ':' ∉ key.toList := by decide
  have file := not_colons_infix (keys "file" (by decide))
  have line := not_colons_infix (keys "line" (by decide))
  have col := not_colons_infix (keys "col" (by decide))
  have title := not_colons_infix (keys "title" (by decide))
  have blank : ' ' ≠ ':' := by decide
  have comma : ',' ≠ ':' := by decide
  have equals : '=' ≠ ':' := by decide
  rw [head_noticeOf]
  simp only [List.append_assoc, List.cons_append, colons_infix_append blank,
    colons_infix_append comma, colons_infix_append equals, level, number, file, line, col, title,
    false_or]

/-- The numbers and keys in a command have no part that means something else. -/
theorem isPlain_iff (d : Diagnostic) :
    IsPlain d ↔ '\n' ∉ (noticeOf d).text ∧ (noticeOf d).IsPlain := by
  have properties (P : List Char → Prop) (number : ∀ n : Nat, P n.repr.toList) :
      (∀ p ∈ (noticeOf d).properties, P p.2) ↔
        ∀ s ∈ [d.location.file.text, d.code], P s.toList := by
    simp only [noticeOf, List.forall_mem_cons, number, true_and, List.not_mem_nil,
      false_implies, implies_true]
  have commas := properties (',' ∉ ·) (notMem_repr (by decide))
  have escapes := properties (NoEscape valueEscapes) fun n =>
    noEscape_of_notMem (notMem_repr (by decide) n)
  have colons := colons_infix_head_iff (d := d).not.trans not_or
  have lines : '\n' ∉ (noticeOf d).text ↔
      ∀ s ∈ [d.location.file.text, d.code, d.message], '\n' ∉ s.toList := by
    rw [newline_mem_text_iff]
    push Not
    rfl
  constructor
  · intro plain
    exact ⟨lines.2 plain.lines, colons.2 ⟨plain.fileColons, plain.codeColons⟩,
      commas.2 plain.commas, escapes.2 plain.escapes, plain.message⟩
  · rintro ⟨single, plain⟩
    obtain ⟨fileColons, codeColons⟩ := colons.1 plain.colons
    exact ⟨lines.1 single, commas.1 plain.comma, escapes.1 plain.values, fileColons, codeColons,
      plain.data⟩

theorem toList_render (o : ReportOptions) (r : Report) : (render o r).toList =
    ((o.select r.diagnostics).map fun d => (noticeOf d).text).flatMap (· ++ ['\n']) := by
  simp only [render, String.toList_join, List.flatMap_map, toList_command]

/-- A report is read back, line by line and with all that its diagnostics say, if and only if the
texts of the diagnostics that it shows are plain. -/
theorem readCommands_render_iff (o : ReportOptions) (r : Report) :
    readCommands (render o r).toList = (o.select r.diagnostics).map (some ∘ noticeOf) ↔
      ∀ d ∈ o.select r.diagnostics, IsPlain d := by
  rw [toList_render]
  generalize o.select r.diagnostics = shown
  constructor
  · intro read
    have count := congrArg List.length read
    rw [readCommands, List.length_map, List.length_map,
      ← List.length_map (fun d => (noticeOf d).text)] at count
    have single := Text.single_of_length_splitLines count
    rw [readCommands, Text.splitLines_flatMap single, List.map_map, List.map_inj_left] at read
    exact fun d member => (isPlain_iff d).2 ⟨single _ (List.mem_map_of_mem member),
      isPlain_of_read (isKeyed_noticeOf d) (read d member)⟩
  · intro plain
    have single : ∀ line ∈ shown.map fun d => (noticeOf d).text, '\n' ∉ line := by
      intro line member
      obtain ⟨d, shown, rfl⟩ := List.mem_map.1 member
      exact ((isPlain_iff d).1 (plain d shown)).1
    rw [readCommands, Text.splitLines_flatMap single, List.map_map, List.map_inj_left]
    exact fun d member =>
      read_of_isPlain (isKeyed_noticeOf d) ((isPlain_iff d).1 (plain d member)).2

def commaInName : Report :=
  { Report.empty with diagnostics :=
      [.raise Rule.commandNamingDescriptor "X" "X" ⟨⟨"a,b.cs"⟩, 1, 1⟩ []] }

/-- The name of the file ends at the comma, and what is behind it is no property. -/
theorem readCommands_commaInName :
    readCommands (render .standard commaInName).toList = [none] ∧
    readCommands (render .standard commaInName).toList ≠
      (ReportOptions.standard.select commaInName.diagnostics).map (some ∘ noticeOf) := by
  have read : readCommands (render .standard commaInName).toList = [none] := by decide +kernel
  refine ⟨read, fun same => ?_⟩
  cases read.symm.trans same

/-- Whatever the grammar, commands do not tell where a text ends and what is written around it
begins. -/
theorem command_ambiguous (d : Diagnostic) (file : String) (line column : Nat) (message : String) :
    command { d with
      location := ⟨⟨file ++ ",line=" ++ line.repr ++ ",col=" ++ column.repr ++ ",title=" ++
        d.code ++ "::" ++ message⟩, d.location.line, d.location.column⟩ } =
    command { d with
      location := ⟨⟨file⟩, line, column⟩
      message := message ++ ",line=" ++ d.location.line.repr ++ ",col=" ++
        d.location.column.repr ++ ",title=" ++ d.code ++ "::" ++ d.message } := by
  unfold command
  simp only [Diagnostic.code, Diagnostic.severity, String.append_assoc]

end Report.Workflow

end ConventionLint
