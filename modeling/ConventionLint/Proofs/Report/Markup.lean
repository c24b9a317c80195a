import ConventionLint.Proofs.Report.Entities
import ConventionLint.Proofs.Text.Splitting
import ConventionLint.Report.BuildServer
import ConventionLint.Rule.Standard

/-!
# The markup of a report

A scan that knows nothing of reports looks at what stands between angle brackets. In a report in
JUnit's form it finds one test case for each diagnostic shown, and in it a failure if the diagnostic
blocks, in their order and as many as the head of the report says, whatever the texts in it are.
-/
namespace ConventionLint

namespace Xml

/-- What stands between two angle brackets, the values of attributes decoded. -/
inductive Markup where
  | declaration
  | opening (name : String) (attributes : List (String × String))
  | closing (name : String)
deriving DecidableEq

/-- A name with a space in front of it and an equals sign behind. -/
def attributeName? : List Char → Option String
  | ' ' :: key =>
    match Text.cutFirst '=' key with
    | some (name, []) => some (String.ofList name)
    | _ => none
  | _ => none

/-- Reads attributes that have been split at the quotes. -/
def readAttributes : List (List Char) → Option (List (String × String))
  | [[]] => some []
  | key :: value :: pieces => do
    let name ← attributeName? key
    let text ← decode value
    let further ← readAttributes pieces
    return (name, String.ofList text) :: further
  | _ => none

def readMarkup : List Char → Option Markup
  | '?' :: _ => some .declaration
  | '/' :: name => some (.closing (String.ofList name))
  | inside =>
    (readAttributes (Text.splitAtEach '"' (inside.dropWhile (· ≠ ' ')))).map
      (.opening (String.ofList (inside.takeWhile (· ≠ ' '))))

/-- Reads what stands in front of the first closing bracket. -/
def readPiece (piece : List Char) : Option Markup := do
  let (inside, _) ← Text.cutFirst '>' piece
  readMarkup inside

/-- The markup in a text, in order. Each opening bracket has to be closed before the next one. -/
def scan (s : List Char) : Option (List Markup) :=
  (Text.splitAtEach '<' s).tail.mapM readPiece

def elements (name : String) (markup : List Markup) : List (List (String × String)) :=
  markup.filterMap fun
    | .opening n attributes => if n = name then some attributes else none
    | _ => none

section

variable (name n : String) (attributes : List (String × String)) (markup more : List Markup)

@[simp] theorem elements_nil : elements name [] = [] := rfl

@[simp] theorem elements_declaration :
    elements name (.declaration :: more) = elements name more := rfl

@[simp] theorem elements_closing : elements name (.closing n :: more) = elements name more := rfl

@[simp] theorem elements_opening : elements name (.opening n attributes :: more) =
    if n = name then attributes :: elements name more else elements name more := by
  rw [elements, List.filterMap_cons]
  by_cases same : n = name <;> simp [same, elements]

@[simp] theorem elements_append :
    elements name (markup ++ more) = elements name markup ++ elements name more :=
  List.filterMap_append

end

/-- A text in which the scan finds the given markup, whatever comes behind. -/
def Bears (s : List Char) (markup : List Markup) : Prop :=
  ∀ rest, scan (s ++ rest) = (scan rest).map (markup ++ ·)

variable {s t inside : List Char} {markup more : List Markup} {m : Markup}

theorem Bears.scan_eq (bears : Bears s markup) : scan s = some markup := by
  have alone := bears []
  rw [List.append_nil] at alone
  rw [alone]
  change some (markup ++ []) = _
  rw [List.append_nil]

theorem Bears.append (first : Bears s markup) (second : Bears t more) :
    Bears (s ++ t) (markup ++ more) := by
  intro rest
  rw [List.append_assoc, first, second, Option.map_map]
  congr 1
  funext behind
  exact (List.append_assoc ..).symm

theorem bears_flatMap {α : Type} {l : List α} {f : α → List Char} {g : α → List Markup}
    (each : ∀ a ∈ l, Bears (f a) (g a)) : Bears (l.flatMap f) (l.flatMap g) := by
  induction l with
  | nil =>
    intro rest
    cases found : scan rest <;> simp [found]
  | cons a l ih =>
    rw [List.forall_mem_cons] at each
    exact each.1.append (ih each.2)

theorem bears_text (plain : '<' ∉ s) : Bears s [] := by
  intro rest
  have kept (l : List (List Char)) : (l.modifyHead (s ++ ·)).tail = l.tail := by cases l <;> rfl
  rw [scan, Text.splitAtEach_append_of_notMem plain, kept, ← scan]
  cases scan rest <;> rfl

theorem bears_bracketed (opened : '<' ∉ inside) (closed : '>' ∉ inside)
    (read : readMarkup inside = some m) : Bears ('<' :: (inside ++ ['>'])) [m] := by
  intro rest
  have parted : '<' ∉ inside ++ ['>'] := by simp [opened]
  obtain ⟨first, others, pieces⟩ := List.exists_cons_of_ne_nil (Text.splitAtEach_ne_nil '<' rest)
  have piece : readPiece (inside ++ ['>'] ++ first) = some m := by
    rw [readPiece, List.append_assoc, List.singleton_append, Text.cutFirst_append closed]
    exact read
  rw [List.cons_append, scan, Text.splitAtEach, if_pos rfl, List.tail_cons,
    Text.splitAtEach_append_of_notMem parted, scan, pieces, List.modifyHead_cons, List.mapM_cons,
    List.tail_cons, piece]
  cases others.mapM readPiece <;> rfl

/-- The characters by which names in markup are told from what stands around them. -/
def delimiters : List Char :=
  [' ', '=', '<', '>', '"', '/', '?']

def IsName (name : String) : Prop :=
  name.toList ≠ [] ∧ ∀ c ∈ name.toList, c ∉ delimiters

instance (name : String) : Decidable (IsName name) :=
  have : Decidable (∀ c ∈ name.toList, c ∉ delimiters) := List.decidableBAll _ name.toList
  inferInstanceAs (Decidable (_ ∧ _))

def attributeText (a : String × String) : List Char :=
  (Report.Junit.withAttribute a.1 (escape a.2)).toList

def attributesText (attributes : List (String × String)) : List Char :=
  attributes.flatMap attributeText

variable {name : String} {a : String × String} {attributes : List (String × String)} {c : Char}

theorem IsName.notMem (named : IsName name) (delimiter : c ∈ delimiters) : c ∉ name.toList :=
  fun inside => named.2 c inside delimiter

theorem attributeText_eq (a : String × String) : attributeText a =
    (' ' :: (a.1.toList ++ ['='])) ++ '"' :: (escapeList a.2.toList ++ ['"']) := by
  simp [attributeText, Report.Junit.withAttribute, escape]

theorem notMem_escapeList (special : c ∈ specials) (other : c ≠ '&') : c ∉ escapeList s :=
  escapeList_eq_encode s ▸ notMem_encode special other

theorem decode_escapeList (s : List Char) : decode (escapeList s) = some s := by
  rw [escapeList_eq_encode, decode_encode]

theorem notMem_attributesText (bracket : c ∈ ['<', '>']) (keys : ∀ a ∈ attributes, IsName a.1) :
    c ∉ attributesText attributes := by
  intro inside
  obtain ⟨a, member, written⟩ := List.mem_flatMap.1 inside
  have apart : ∀ c ∈ ['<', '>'], c ∈ delimiters ∧ c ∈ specials ∧ c ≠ '&' ∧ c ∉ [' ', '=', '"'] := by
    simp [delimiters, specials]
  obtain ⟨delimiter, special, other, unused⟩ := apart c bracket
  have key : c ∉ a.1.toList := (keys a member).notMem delimiter
  have value : c ∉ escapeList a.2.toList := notMem_escapeList special other
  rw [attributeText_eq] at written
  simp_all

theorem attributeName?_eq (named : IsName name) :
    attributeName? (' ' :: (name.toList ++ ['='])) = some name := by
  have cut : Text.cutFirst '=' (name.toList ++ ['=']) = some (name.toList, []) :=
    Text.cutFirst_append (named.notMem (by decide)) []
  simp [attributeName?, cut]

theorem readAttributes_attributesText (keys : ∀ a ∈ attributes, IsName a.1) :
    readAttributes (Text.splitAtEach '"' (attributesText attributes)) = some attributes := by
  induction attributes with
  | nil => rfl
  | cons a attributes ih =>
    rw [List.forall_mem_cons] at keys
    have key : '"' ∉ ' ' :: (a.1.toList ++ ['=']) := by
      simp [keys.1.notMem (c := '"') (by decide)]
    have value : '"' ∉ escapeList a.2.toList := notMem_escapeList (by decide) (by decide)
    have pieces : Text.splitAtEach '"' (attributesText (a :: attributes)) =
        (' ' :: (a.1.toList ++ ['='])) :: escapeList a.2.toList ::
          Text.splitAtEach '"' (attributesText attributes) := by
      rw [attributesText, List.flatMap_cons, ← attributesText, attributeText_eq, List.append_assoc,
        List.cons_append, List.cons_append, ← List.cons_append, Text.splitAtEach_append key,
        List.append_assoc, List.singleton_append, Text.splitAtEach_append value]
    rw [pieces, readAttributes, attributeName?_eq keys.1, decode_escapeList, ih keys.2]
    simp

theorem takeWhile_attributesText (attributes : List (String × String)) :
    (attributesText attributes).takeWhile (· ≠ ' ') = [] := by
  cases attributes with
  | nil => rfl
  | cons a attributes =>
    rw [attributesText, List.flatMap_cons, attributeText_eq]
    rfl

theorem readMarkup_opening (named : IsName name) (keys : ∀ a ∈ attributes, IsName a.1) :
    readMarkup (name.toList ++ attributesText attributes) = some (.opening name attributes) := by
  have plain : ∀ c ∈ name.toList, decide (c ≠ ' ') = true := fun c inside => by
    have delimiter : ' ' ∈ delimiters := by decide
    exact decide_eq_true fun same => named.2 c inside (same ▸ delimiter)
  have behind : (attributesText attributes).dropWhile (· ≠ ' ') = attributesText attributes := by
    have parts := List.takeWhile_append_dropWhile (p := (· ≠ ' ')) (l := attributesText attributes)
    rwa [takeWhile_attributesText, List.nil_append] at parts
  have inner : (readAttributes (Text.splitAtEach '"'
      ((name.toList ++ attributesText attributes).dropWhile (· ≠ ' ')))).map (Markup.opening
        (String.ofList ((name.toList ++ attributesText attributes).takeWhile (· ≠ ' ')))) =
      some (.opening name attributes) := by
    rw [List.dropWhile_append_of_pos plain, List.takeWhile_append_of_pos plain, behind,
      takeWhile_attributesText, readAttributes_attributesText keys, List.append_nil,
      String.ofList_toList, Option.map_some]
  obtain ⟨c, rest, written⟩ := List.exists_cons_of_ne_nil named.1
  have first : c ∉ delimiters := named.2 c (written ▸ List.mem_cons_self)
  rw [written, List.cons_append] at inner ⊢
  rw [readMarkup.eq_3, inner] <;> rintro _ ⟨⟩ <;> exact first (by decide)

theorem bears_opening (named : IsName name) (keys : ∀ a ∈ attributes, IsName a.1) :
    Bears ('<' :: (name.toList ++ attributesText attributes ++ ['>']))
      [.opening name attributes] := by
  have parted {c : Char} (bracket : c ∈ ['<', '>']) (delimiter : c ∈ delimiters) :
      c ∉ name.toList ++ attributesText attributes := by
    simp [named.notMem delimiter, notMem_attributesText bracket keys]
  exact bears_bracketed (parted (by decide) (by decide)) (parted (by decide) (by decide))
    (readMarkup_opening named keys)

theorem bears_closing (named : IsName name) :
    Bears ('<' :: ('/' :: name.toList ++ ['>'])) [.closing name] := by
  refine bears_bracketed ?_ ?_ ?_
  · simp [named.notMem (c := '<') (by decide)]
  · simp [named.notMem (c := '>') (by decide)]
  · rw [readMarkup, String.ofList_toList]

theorem escape_of_plain {text : String} (plain : IsPlain text.toList) :
    escape text = text := by
  rw [escape, escapeList_eq_encode, encode_of_plain plain, String.ofList_toList]

theorem plain_of_isDigit (digit : c.isDigit = true) : c ∉ specials := by
  have none : ∀ c ∈ specials, c.isDigit = false := by simp [specials]
  exact fun special => by simp [none c special] at digit

theorem isDigit_of_mem_repr {n : Nat} (member : c ∈ n.repr.toList) : c.isDigit = true := by
  rw [Nat.toList_repr] at member
  exact Nat.isDigit_of_mem_toDigits (by decide) (by decide) member

theorem plain_repr (n : Nat) : IsPlain n.repr.toList :=
  fun _ member => plain_of_isDigit (isDigit_of_mem_repr member)

theorem plain_fixed (r : Number.Ratio) (places : Nat) : IsPlain (r.fixed places).toList := by
  intro c member
  simp only [Number.Ratio.fixed, String.toList_append, String.toList_ofList, List.mem_append,
    List.mem_replicate] at member
  rcases member with ((units | point) | ⟨-, rfl⟩) | fraction
  · exact plain_repr _ c units
  · have dot : IsPlain ".".toList := by decide
    exact dot c point
  · decide
  · exact plain_repr _ c fraction

end Xml

namespace Report.Junit

open Xml

variable {d : Diagnostic}

/-- What is marked up of a diagnostic. -/
def caseMarkup (d : Diagnostic) : List Markup :=
  .opening "testcase" [("classname", d.code), ("name", caseName d)] ::
    ((if d.isBlocking then [.opening "failure" [("message", d.message)], .closing "failure"]
      else []) ++ [.closing "testcase"])

theorem bears_newline : Bears "\n".toList [] :=
  bears_text (by decide)

theorem bears_failure (d : Diagnostic) :
    Bears (failure d).toList [.opening "failure" [("message", d.message)], .closing "failure"] := by
  have parts : (failure d).toList = "    ".toList ++
      '<' :: ("failure".toList ++ attributesText [("message", d.message)] ++ ['>']) ++
        ("\n      File: ".toList ++ escapeList d.location.render.toList ++ "\n    ".toList) ++
          '<' :: ('/' :: "failure".toList ++ ['>']) ++ "\n".toList := by
    unfold failure
    simp [attributesText, attributeText, escape]
  have key : IsName "message" := by decide
  have indent : Bears "    ".toList [] := bears_text (by decide)
  have start := bears_opening (by decide : IsName "failure")
    (List.forall_mem_singleton.2 key : ∀ a ∈ [("message", d.message)], IsName a.1)
  have file : Bears ("\n      File: ".toList ++ escapeList d.location.render.toList ++
      "\n    ".toList) [] := by
    apply bears_text
    simp [notMem_escapeList (c := '<') (by decide) (by decide)]
  have finish := bears_closing (by decide : IsName "failure")
  rw [parts]
  exact (((indent.append start).append file).append finish).append bears_newline

theorem bears_testCase (plain : IsPlain d.code.toList) :
    Bears (testCase d).toList (caseMarkup d) := by
  have parts : (testCase d).toList = "  ".toList ++
      '<' :: ("testcase".toList ++ attributesText [("classname", d.code), ("name", caseName d)]
        ++ ['>']) ++ "\n".toList ++ (if d.isBlocking then failure d else "").toList ++
          "  ".toList ++ '<' :: ('/' :: "testcase".toList ++ ['>']) ++ "\n".toList := by
    unfold testCase
    simp [attributesText, attributeText, escape_of_plain plain]
  have keys : IsName "classname" ∧ IsName "name" := by decide
  have indent : Bears "  ".toList [] := bears_text (by decide)
  have start := bears_opening (by decide : IsName "testcase")
    (by simpa using keys : ∀ a ∈ [("classname", d.code), ("name", caseName d)], IsName a.1)
  have inner : Bears (if d.isBlocking then failure d else "").toList
      (if d.isBlocking then [.opening "failure" [("message", d.message)], .closing "failure"]
        else []) := by
    split
    · exact bears_failure d
    · exact bears_text (by decide)
  have finish := bears_closing (by decide : IsName "testcase")
  rw [parts]
  simpa only [caseMarkup, List.nil_append, List.append_nil, List.append_assoc,
    List.singleton_append, List.cons_append] using
      (((((indent.append start).append bears_newline).append inner).append indent).append
        finish).append bears_newline

/-- The attributes at the head of a report. -/
def suiteAttributes (r : Report) (shown : List Diagnostic) : List (String × String) :=
  [("name", Tool.name), ("tests", shown.length.repr),
    ("failures", (shown.countP (·.isBlocking)).repr), ("errors", r.faults.length.repr),
    ("time", (Number.seconds r.milliseconds).fixed 3)]

theorem bears_suiteStart (r : Report) (shown : List Diagnostic) :
    Bears (suiteStart r shown).toList [.opening "testsuite" (suiteAttributes r shown)] := by
  have tool : IsPlain Tool.name.toList := by decide
  have parts : (suiteStart r shown).toList =
      '<' :: ("testsuite".toList ++ attributesText (suiteAttributes r shown) ++ ['>']) ++
        "\n".toList := by
    unfold suiteStart
    simp [suiteAttributes, attributesText, attributeText, escape_of_plain tool,
      escape_of_plain (plain_repr _), escape_of_plain (plain_fixed _ _)]
  have keys : ∀ a ∈ suiteAttributes r shown, IsName a.1 := by
    have names : ∀ name ∈ (suiteAttributes r shown).map (·.1), IsName name := by
      change ∀ name ∈ ["name", "tests", "failures", "errors", "time"], IsName name
      decide
    simpa using names
  rw [parts]
  exact (bears_opening (by decide) keys).append bears_newline

theorem mem_of_mem_select {o : ReportOptions} {diagnostics : List Diagnostic}
    (member : d ∈ o.select diagnostics) : d ∈ diagnostics := by
  rw [ReportOptions.select] at member
  cases limit : o.maxDiagnostics with
  | none =>
    rw [limit] at member
    exact (List.mem_filter.1 member).1
  | some n =>
    rw [limit] at member
    exact (List.mem_filter.1 (List.mem_of_mem_take member)).1

/-- What is marked up in a report of which the given diagnostics are shown. -/
def reportMarkup (r : Report) (shown : List Diagnostic) : List Markup :=
  .declaration :: .opening "testsuite" (suiteAttributes r shown) ::
    (shown.flatMap caseMarkup ++ [.closing "testsuite"])

theorem bears_render {o : ReportOptions} {r : Report}
    (plain : ∀ d ∈ r.diagnostics, IsPlain d.code.toList) :
    Bears (render o r).toList (reportMarkup r (o.select r.diagnostics)) := by
  have parts : (render o r).toList =
      '<' :: (('?' :: "xml version=\"1.0\" encoding=\"UTF-8\"?".toList) ++ ['>']) ++ "\n".toList ++
        (suiteStart r (o.select r.diagnostics)).toList ++
          (o.select r.diagnostics).flatMap (fun d => (testCase d).toList) ++
            '<' :: ('/' :: "testsuite".toList ++ ['>']) ++ "\n".toList := by
    unfold render
    simp [List.flatMap_map]
  have head : Bears ('<' :: (('?' :: "xml version=\"1.0\" encoding=\"UTF-8\"?".toList) ++ ['>']))
      [.declaration] := bears_bracketed (by decide) (by decide) (readMarkup.eq_1 _)
  have cases := bears_flatMap fun d (member : d ∈ o.select r.diagnostics) =>
    bears_testCase (plain d (mem_of_mem_select member))
  have finish := bears_closing (by decide : IsName "testsuite")
  rw [parts]
  simpa only [reportMarkup, List.nil_append, List.append_nil, List.append_assoc,
    List.singleton_append, List.cons_append] using
      ((((head.append bears_newline).append (bears_suiteStart r _)).append cases).append
        finish).append bears_newline

theorem elements_flatMap (name : String) (f : Diagnostic → List Markup) (l : List Diagnostic) :
    elements name (l.flatMap f) = l.flatMap fun d => elements name (f d) :=
  List.filterMap_flatMap

theorem elements_testsuite (d : Diagnostic) : elements "testsuite" (caseMarkup d) = [] := by
  rw [caseMarkup]
  split <;> simp

theorem elements_testcase (d : Diagnostic) :
    elements "testcase" (caseMarkup d) = [[("classname", d.code), ("name", caseName d)]] := by
  rw [caseMarkup]
  split <;> simp

theorem elements_failure (l : List Diagnostic) :
    l.flatMap (fun d => elements "failure" (caseMarkup d)) =
      (l.filter (·.isBlocking)).map fun d => [("message", d.message)] := by
  have single (d : Diagnostic) : elements "failure" (caseMarkup d) =
      if d.isBlocking then [[("message", d.message)]] else [] := by
    rw [caseMarkup]
    split <;> simp
  simp only [single]
  induction l with
  | nil => rfl
  | cons d l ih =>
    rw [List.flatMap_cons, ih, List.filter_cons]
    split <;> rfl

theorem elements_reportMarkup (r : Report) (shown : List Diagnostic) :
    elements "testsuite" (reportMarkup r shown) = [suiteAttributes r shown] ∧
    elements "testcase" (reportMarkup r shown) =
      shown.map (fun d => [("classname", d.code), ("name", caseName d)]) ∧
    elements "failure" (reportMarkup r shown) =
      (shown.filter (·.isBlocking)).map fun d => [("message", d.message)] := by
  have parts (name : String) : elements name (reportMarkup r shown) =
      elements name [.opening "testsuite" (suiteAttributes r shown)] ++
        shown.flatMap fun d => elements name (caseMarkup d) := by
    simp only [reportMarkup, elements_declaration, elements_opening, elements_append,
      elements_closing, elements_nil, List.append_nil, elements_flatMap]
    split <;> rfl
  refine ⟨?_, ?_, ?_⟩ <;> rw [parts]
  · simp [elements_testsuite]
  · simp [elements_testcase, List.map_eq_flatMap]
  · simp [elements_failure]

/-- Escaping is one pass over a text, can be undone, and leaves no special character but at the
start of an entity. So of whatever texts a report is made, a scan of its markup finds one suite,
which says how many test cases and failures the scan finds: one case for each diagnostic shown, and
in it a failure for each that blocks, in order and with the names and messages that they have. -/
theorem markup_of_render {o : ReportOptions} {r : Report}
    (known : ∀ d ∈ r.diagnostics, d.code ∈ Descriptor.catalog.map (·.code)) :
    (∀ s : String, (escape s).toList = encode s.toList) ∧
    (∀ (s : String) (t : List Char), decode t = some s.toList ↔ t = (escape s).toList) ∧
    (∀ s : String, (∀ c ∈ (escape s).toList, c ∉ ['<', '>', '"', '\'']) ∧
      ∀ front behind, (escape s).toList = front ++ '&' :: behind →
        ∃ entity ∈ entities, entity.2 <+: '&' :: behind) ∧
    ∃ markup, scan (render o r).toList = some markup ∧
      markup = reportMarkup r (o.select r.diagnostics) ∧
      elements "testsuite" markup = [[("name", Tool.name),
        ("tests", (elements "testcase" markup).length.repr),
        ("failures", (elements "failure" markup).length.repr),
        ("errors", r.faults.length.repr), ("time", (Number.seconds r.milliseconds).fixed 3)]] ∧
      elements "testcase" markup = (o.select r.diagnostics).map
        (fun d => [("classname", d.code), ("name", caseName d)]) ∧
      elements "failure" markup = ((o.select r.diagnostics).filter (·.isBlocking)).map
        (fun d => [("message", d.message)]) := by
  have written (s : String) : (escape s).toList = encode s.toList := by
    rw [escape, String.toList_ofList, escapeList_eq_encode]
  refine ⟨written, fun s t => by rw [written, decode_eq_some_iff], fun s => ?_, ?_⟩
  · rw [written]
    refine ⟨fun c member special => ?_, fun front behind => entity_of_encode⟩
    have apart : ∀ c ∈ ['<', '>', '"', '\''], c ∈ specials ∧ c ≠ '&' := by simp [specials]
    exact notMem_encode (apart c special).1 (apart c special).2 member
  · have plain : ∀ d ∈ r.diagnostics, IsPlain d.code.toList := by
      intro d member
      obtain ⟨descriptor, listed, same⟩ := List.mem_map.1 (known d member)
      have codes : ∀ descriptor ∈ Descriptor.catalog, IsPlain descriptor.code.toList := by decide
      exact same ▸ codes descriptor listed
    obtain ⟨suite, cases, failures⟩ := elements_reportMarkup r (o.select r.diagnostics)
    refine ⟨_, (bears_render plain).scan_eq, rfl, ?_, cases, failures⟩
    rw [suite, cases, failures, List.length_map, List.length_map, ← List.countP_eq_length_filter]
    rfl

/-- A report of one diagnostic, the texts of which look like markup. -/
def awkward : Report :=
  { Report.empty with diagnostics :=
      [⟨{ internalError with severity := .error }, "a < b &amp; \"c\"", ⟨⟨"it's.cs"⟩, 1, 2⟩,
        "</testcase>", []⟩] }

theorem markup_of_render_awkward :
    (∀ d ∈ awkward.diagnostics, d.code ∈ Descriptor.catalog.map (·.code)) ∧
    ∃ markup, scan (render .standard awkward).toList = some markup ∧
      elements "testcase" markup =
        [[("classname", "SS900"), ("name", "</testcase> (it's.cs:1:2)")]] ∧
      elements "failure" markup = [[("message", "a < b &amp; \"c\"")]] := by
  have known : ∀ d ∈ awkward.diagnostics, d.code ∈ Descriptor.catalog.map (·.code) := by
    decide +kernel
  obtain ⟨-, -, -, markup, found, -, -, cases, failures⟩ :=
    markup_of_render (o := .standard) known
  refine ⟨known, markup, found, cases.trans ?_, failures.trans ?_⟩ <;> decide +kernel

end Report.Junit

end ConventionLint
