/-!
# JSON values

Values as they are written: the members of an object keep their order. Texts are rendered over
several lines, two blanks for each level.
-/
namespace ConventionLint.Json

inductive Value where
  | null
  | bool (b : Bool)
  | number (n : Nat)
  | text (s : String)
  | array (items : List Value)
  | object (members : List (String × Value))

def hexDigits (n : Nat) : String :=
  String.ofList (Nat.toDigits 16 n)

/-- A character inside a quoted text. -/
def escapeCharacter (c : Char) : String :=
  if c = '"' then "\\\""
  else if c = '\\' then "\\\\"
  else if c = '\n' then "\\n"
  else if c = '\r' then "\\r"
  else if c = '\t' then "\\t"
  else if c = '\x08' then "\\b"
  else if c = '\x0c' then "\\f"
  else if c < '\x10' then "\\u000" ++ hexDigits c.toNat
  else if c < ' ' then "\\u00" ++ hexDigits c.toNat
  else String.singleton c

def quote (s : String) : String :=
  "\"" ++ String.join (s.toList.map escapeCharacter) ++ "\""

/-- The start of a line at a level. -/
def newline (level : Nat) : String :=
  String.ofList ('\n' :: List.replicate (2 * level) ' ')

namespace Value

def ofOption {α : Type} (encode : α → Value) : Option α → Value
  | some a => encode a
  | none => .null

def texts (l : List String) : Value :=
  .array (l.map .text)

mutual

/-- The text of a value that starts on a line of the given level. -/
def renderAt (level : Nat) : Value → String
  | .null => "null"
  | .bool b => if b then "true" else "false"
  | .number n => n.repr
  | .text s => quote s
  | .array [] => "[]"
  | .array (item :: items) =>
    "[" ++ newline (level + 1) ++ renderAt (level + 1) item ++ renderItems (level + 1) items
      ++ newline level ++ "]"
  | .object [] => "\x7b\x7d"
  | .object ((name, member) :: members) =>
    "\x7b" ++ newline (level + 1) ++ quote name ++ ": " ++ renderAt (level + 1) member
      ++ renderMembers (level + 1) members ++ newline level ++ "\x7d"

def renderItems (level : Nat) : List Value → String
  | [] => ""
  | item :: items => "," ++ newline level ++ renderAt level item ++ renderItems level items

def renderMembers (level : Nat) : List (String × Value) → String
  | [] => ""
  | (name, member) :: members =>
    "," ++ newline level ++ quote name ++ ": " ++ renderAt level member
      ++ renderMembers level members

end

def render (v : Value) : String :=
  v.renderAt 0

end Value

end ConventionLint.Json
