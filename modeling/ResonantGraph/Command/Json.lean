import ResonantGraph.Binary64.Decimal
import ResonantGraph.Text.Hexadecimal

/-!
# JSON

Structured reports are JSON documents, laid out with two blanks for each level and one member or
item on a line. The members of an object stand in the order in which they are given. A real that is
no number is written as `null`.
-/

namespace ResonantGraph.Command

/-- The values of a report. -/
inductive Json
  /-- Nothing. -/
  | null
  /-- A text. -/
  | text (value : String)
  /-- A number of things. -/
  | count (value : Nat)
  /-- A real. -/
  | real (value : Binary64)
  /-- Values in order. -/
  | list (items : List Json)
  /-- Named values in order. -/
  | object (members : List (String × Json))

namespace Json

/-- A character within a text: the control characters, the double quote and the backslash are
escaped. -/
def escape (c : Char) : List Char :=
  if c = '"' then ['\\', '"']
  else if c = '\\' then ['\\', '\\']
  else if c = '\n' then ['\\', 'n']
  else if c = '\r' then ['\\', 'r']
  else if c = '\t' then ['\\', 't']
  else if c = '\x08' then ['\\', 'b']
  else if c = '\x0c' then ['\\', 'f']
  else if c.toNat < 0x20 then ['\\', 'u'] ++ Text.hexPlaces 4 c.toNat
  else [c]

/-- A text between double quotes. -/
def quote (text : String) : String := String.ofList ('"' :: text.toList.flatMap escape ++ ['"'])

/-- The blanks at the beginning of a line. -/
def margin (level : Nat) : String := String.ofList (List.replicate (2 * level) ' ')

mutual

/-- The text of a value whose last line stands at a level. -/
def layOut (level : Nat) : Json → String
  | null => "null"
  | text value => quote value
  | count value => toString value
  | real value => value.compact?.getD "null"
  | list [] => "[]"
  | list items => "[" ++ layOutItems (level + 1) true items ++ "\n" ++ margin level ++ "]"
  | object [] => "\x7b\x7d"
  | object members =>
    "\x7b" ++ layOutMembers (level + 1) true members ++ "\n" ++ margin level ++ "\x7d"

/-- Items on lines of their own, with commas between them. -/
def layOutItems (level : Nat) (first : Bool) : List Json → String
  | [] => ""
  | item :: rest =>
    (if first then "\n" else ",\n") ++ margin level ++ layOut level item ++
      layOutItems level false rest

/-- Members on lines of their own, with commas between them. -/
def layOutMembers (level : Nat) (first : Bool) : List (String × Json) → String
  | [] => ""
  | (key, value) :: rest =>
    (if first then "\n" else ",\n") ++ margin level ++ quote key ++ ": " ++ layOut level value ++
      layOutMembers level false rest

end

/-- The text of a document. -/
def render (document : Json) : String := document.layOut 0

end Json

end ResonantGraph.Command
