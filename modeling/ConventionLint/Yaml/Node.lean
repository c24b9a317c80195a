import ConventionLint.Yaml.Token

/-!
# Nodes

The content of a document as a tree. An alias stays a leaf that refers to an anchored node by
number, so that a node may lie within itself.
-/
namespace ConventionLint.Yaml

inductive Node where
  | scalar (text : String) (style : ScalarStyle) (tag : Option String)
  | sequence (items : List Node)
  | mapping (entries : List (Node × Node))
  /-- An alias. -/
  | reference (anchor : Nat)

namespace Node

/-- What stands where nothing is written. -/
def empty : Node := .scalar "" .plain none

end Node

/-- A document that is being read. -/
structure Reading where
  tokens : List Token
  /-- What tag handles stand for. -/
  handles : List (String × String)
  /-- The numbers of the anchors met so far, the latest first. -/
  anchors : List (String × Nat)
  /-- The nodes of anchors. -/
  anchored : List (Nat × Node)
  nextAnchor : Nat

namespace Reading

def next (r : Reading) : Option Token :=
  r.tokens.head?

/-- Drops a token. -/
def pass (r : Reading) : Reading :=
  { r with tokens := r.tokens.tail }

/-- Whether the next token is one of these. -/
def nextIn (r : Reading) (ts : List Token) : Bool :=
  r.next.any (ts.contains ·)

def expect (r : Reading) (t : Token) : Option Reading :=
  if r.next = some t then some r.pass else none

end Reading

/-- The tag and the anchor in front of a node. -/
structure Properties where
  tag : Option String
  anchor : Option Nat

def Properties.isNone (p : Properties) : Bool :=
  p.tag.isNone && p.anchor.isNone

namespace Reading

/-- An anchor in front of a node. -/
def readAnchor (r : Reading) : Option Nat × Reading :=
  match r.tokens with
  | .anchor name :: rest =>
    (some r.nextAnchor, { r with
      tokens := rest
      anchors := (name, r.nextAnchor) :: r.anchors
      nextAnchor := r.nextAnchor + 1 })
  | _ => (none, r)

/-- The text of a tag, whose handle has to be known. -/
def resolveTag (r : Reading) (handle suffix : String) : Option String :=
  if handle.isEmpty then some suffix else (r.handles.lookup handle).map (· ++ suffix)

/-- A tag in front of a node. -/
def readTag (r : Reading) : Option (Option String × Reading) :=
  match r.tokens with
  | .tag handle suffix :: _ => (r.resolveTag handle suffix).map fun tag => (some tag, r.pass)
  | _ => some (none, r)

/-- A tag and an anchor in either order. -/
def readProperties (r : Reading) : Option (Properties × Reading) := do
  let (before, r) := r.readAnchor
  let (tag, r) ← r.readTag
  let (anchor, r) := if before.isNone && tag.isSome then r.readAnchor else (before, r)
  return (⟨tag, anchor⟩, r)

/-- Notes the node of an anchor. -/
def note (r : Reading) (anchor : Option Nat) (node : Node) : Reading :=
  match anchor with
  | some n => { r with anchored := (n, node) :: r.anchored }
  | none => r

end Reading

/-- A lone exclamation mark leaves the kind of a scalar open, like no tag. -/
def scalarTag (tag : Option String) : Option String :=
  tag.filter (· ≠ "!")

/-- A tag or an anchor alone makes an empty node. -/
def emptyNode (p : Properties) (r : Reading) : Option (Node × Reading) :=
  if p.isNone then none else some (.scalar "" .plain p.tag, r)

mutual

/-- Reads a node. The limit bounds the number of calls within each other. -/
def readNode (limit : Nat) (inBlock indentless : Bool) (r : Reading) : Option (Node × Reading) :=
  match limit with
  | 0 => none
  | limit + 1 =>
    match r.tokens with
    | .reference name :: _ => (r.anchors.lookup name).map fun n => (.reference n, r.pass)
    | _ => do
      let (properties, r) ← r.readProperties
      let (node, r) ← readContent limit inBlock indentless properties r
      return (node, r.note properties.anchor node)

/-- Reads a node behind its tag and anchor. -/
def readContent (limit : Nat) (inBlock indentless : Bool) (p : Properties) (r : Reading) :
    Option (Node × Reading) :=
  match limit with
  | 0 => none
  | limit + 1 =>
    match r.next with
    | some (.scalar text style) => some (.scalar text style (scalarTag p.tag), r.pass)
    | some .flowSequence => do
      let (items, r) ← readFlowItems limit true r.pass
      return (.sequence items, r)
    | some .flowMapping => do
      let (entries, r) ← readFlowEntries limit true r.pass
      return (.mapping entries, r)
    | some .blockEntry =>
      if indentless then do
        let (items, r) ← readIndentlessItems limit r
        return (.sequence items, r)
      else emptyNode p r
    | some .blockSequence =>
      if inBlock then do
        let (items, r) ← readBlockItems limit r.pass
        return (.sequence items, r)
      else emptyNode p r
    | some .blockMapping =>
      if inBlock then do
        let (entries, r) ← readBlockEntries limit r.pass
        return (.mapping entries, r)
      else emptyNode p r
    | _ => emptyNode p r

/-- Reads a node, or an empty one before some tokens. -/
def readNodeUnless (limit : Nat) (inBlock indentless : Bool) (stops : List Token) (r : Reading) :
    Option (Node × Reading) :=
  match limit with
  | 0 => none
  | limit + 1 =>
    if r.nextIn stops then some (.empty, r) else readNode limit inBlock indentless r

/-- Reads the items of a block sequence and its end. -/
def readBlockItems (limit : Nat) (r : Reading) : Option (List Node × Reading) :=
  match limit with
  | 0 => none
  | limit + 1 =>
    match r.next with
    | some .blockEntry => do
      let (item, r) ← readNodeUnless limit true false [.blockEntry, .blockEnd] r.pass
      let (items, r) ← readBlockItems limit r
      return (item :: items, r)
    | some .blockEnd => some ([], r.pass)
    | _ => none

/-- Reads the items of a sequence that is indented no further than the mapping it lies in. -/
def readIndentlessItems (limit : Nat) (r : Reading) : Option (List Node × Reading) :=
  match limit with
  | 0 => none
  | limit + 1 =>
    match r.next with
    | some .blockEntry => do
      let (item, r) ←
        readNodeUnless limit true false [.blockEntry, .key, .value, .blockEnd] r.pass
      let (items, r) ← readIndentlessItems limit r
      return (item :: items, r)
    | _ => some ([], r)

/-- Reads a value behind its colon; without a colon it is empty. -/
def readValue (limit : Nat) (inBlock : Bool) (stops : List Token) (r : Reading) :
    Option (Node × Reading) :=
  match limit with
  | 0 => none
  | limit + 1 =>
    if r.next = some .value then readNodeUnless limit inBlock inBlock stops r.pass
    else some (.empty, r)

/-- Reads the entries of a block mapping and its end. -/
def readBlockEntries (limit : Nat) (r : Reading) : Option (List (Node × Node) × Reading) :=
  match limit with
  | 0 => none
  | limit + 1 =>
    match r.next with
    | some .key => do
      let stops := [.key, .value, .blockEnd]
      let (key, r) ← readNodeUnless limit true true stops r.pass
      let (value, r) ← readValue limit true stops r
      let (entries, r) ← readBlockEntries limit r
      return ((key, value) :: entries, r)
    | some .blockEnd => some ([], r.pass)
    | _ => none

/-- Reads an entry of a flow mapping, whose key may stand without a mark and then has no value. -/
def readFlowEntry (limit : Nat) (r : Reading) : Option ((Node × Node) × Reading) :=
  match limit with
  | 0 => none
  | limit + 1 =>
    if r.next = some .key then do
      let (key, r) ←
        readNodeUnless limit false false [.value, .flowEntry, .flowMappingEnd] r.pass
      let (value, r) ← readValue limit false [.flowEntry, .flowMappingEnd] r
      return ((key, value), r)
    else do
      let (key, r) ← readNode limit false false r
      return ((key, .empty), r)

/-- Reads the entries of a flow mapping and its end. All but the first stand behind a comma. -/
def readFlowEntries (limit : Nat) (isFirst : Bool) (r : Reading) :
    Option (List (Node × Node) × Reading) :=
  match limit with
  | 0 => none
  | limit + 1 =>
    if r.next = some .flowMappingEnd then some ([], r.pass)
    else do
      let r ← if isFirst then some r else r.expect .flowEntry
      if r.next = some .flowMappingEnd then some ([], r.pass)
      else
        let (entry, r) ← readFlowEntry limit r
        let (entries, r) ← readFlowEntries limit false r
        return (entry :: entries, r)

/-- Reads an item of a flow sequence, which may be a mapping of one entry. -/
def readFlowItem (limit : Nat) (r : Reading) : Option (Node × Reading) :=
  match limit with
  | 0 => none
  | limit + 1 =>
    if r.next = some .key then do
      let r := r.pass
      let (key, r) ←
        if r.nextIn [.value, .flowEntry, .flowSequenceEnd] then some (.empty, r.pass)
        else readNode limit false false r
      let (value, r) ← readValue limit false [.flowEntry, .flowSequenceEnd] r
      return (.mapping [(key, value)], r)
    else readNode limit false false r

/-- Reads the items of a flow sequence and its end. All but the first stand behind a comma. -/
def readFlowItems (limit : Nat) (isFirst : Bool) (r : Reading) : Option (List Node × Reading) :=
  match limit with
  | 0 => none
  | limit + 1 =>
    if r.next = some .flowSequenceEnd then some ([], r.pass)
    else do
      let r ← if isFirst then some r else r.expect .flowEntry
      if r.next = some .flowSequenceEnd then some ([], r.pass)
      else
        let (item, r) ← readFlowItem limit r
        let (items, r) ← readFlowItems limit false r
        return (item :: items, r)

end

structure Document where
  root : Node
  anchored : List (Nat × Node)

namespace Document

/-- The node itself, or the anchored node that it stands for. -/
def follow (d : Document) : Node → Node
  | .reference n => (d.anchored.lookup n).getD .empty
  | node => node

end Document

/-- The directives of a document. -/
structure Directives where
  version : Option (Nat × Nat)
  handles : List (String × String)

/-- Reads directives. There is at most one version, which is known, and one for each handle. -/
def readDirectives (d : Directives) : List Token → Option (Directives × List Token)
  | .version major minor :: rest =>
    if d.version.isNone && major = 1 && (minor = 1 || minor = 2) then
      readDirectives { d with version := some (major, minor) } rest
    else none
  | .tagHandle handle stem :: rest =>
    if (d.handles.lookup handle).isSome then none
    else readDirectives { d with handles := (handle, stem) :: d.handles } rest
  | rest => some (d, rest)

/-- The handles that every document has, unless it declares them itself. -/
def standardHandles : List (String × String) :=
  [("!", "!"), ("!!", "tag:yaml.org,2002:")]

/-- Whether a document's content is missing before these tokens. -/
def isBareDocument : List Token → Bool
  | [] | .version .. :: _ | .tagHandle .. :: _ | .documentStart :: _ | .documentEnd :: _ => true
  | _ => false

/-- Reads the content of a document and sees that nothing follows it. -/
def readDocument (handles : List (String × String)) (tokens : List Token) : Option Document := do
  let r : Reading := ⟨tokens, handles ++ standardHandles, [], [], 0⟩
  let (root, r) ← readNode (4 * tokens.length + 4) true false r
  if r.tokens.all (· = .documentEnd) then some ⟨root, r.anchored⟩ else none

/-- The only document of a text. A text without any has an empty one. -/
def document? (s : String) : Option Document := do
  let tokens ← tokens? s
  let (directives, rest) ← readDirectives ⟨none, []⟩ tokens
  match rest with
  | .documentStart :: body =>
    if isBareDocument body then
      if body.all (· = .documentEnd) then some ⟨.empty, []⟩ else none
    else readDocument directives.handles body
  | [] => if tokens.isEmpty then some ⟨.empty, []⟩ else none
  | body => if body.length = tokens.length then readDocument [] body else none

end ConventionLint.Yaml
