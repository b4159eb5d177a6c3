/-
JSON as it is written for people: every member and every item on a line
of its own, two blanks further in than what holds it. What is empty takes
no lines.
-/
import TimedOverlay.Json.Value
import TimedOverlay.Text.Basic

namespace TimedOverlay.Json

-- =============================================================== strings

/-- A character inside a string. Control characters have short forms, or
are written by number. -/
def written (c : Char) : List Char :=
  if c = '"' then ['\\', '"']
  else if c = '\\' then ['\\', '\\']
  else if c = '\n' then ['\\', 'n']
  else if c = '\r' then ['\\', 'r']
  else if c = '\t' then ['\\', 't']
  else if c.toNat = 8 then ['\\', 'b']
  else if c.toNat = 12 then ['\\', 'f']
  else if c.toNat < 32 then
    ['\\', 'u', '0', '0', Text.hexDigit (c.toNat / 16),
      Text.hexDigit (c.toNat % 16)]
  else [c]

/-- A string between its quotes. -/
def quoted (s : String) : String :=
  String.ofList ('"' :: s.toList.flatMap written ++ ['"'])

-- ================================================================ values

/-- The start of a line `depth` steps in. -/
def newLine (depth : Nat) : String :=
  String.ofList ('\n' :: List.replicate (2 * depth) ' ')

mutual

/-- A value whose last line is `depth` steps in. -/
def Value.layout (depth : Nat) : Value → String
  | .null => "null"
  | .bool b => if b then "true" else "false"
  | .number n => n.text
  | .string s => quoted s
  | .array items =>
    if items.isEmpty then "[]"
    else "[" ++ String.intercalate "," (itemLines (depth + 1) items)
      ++ newLine depth ++ "]"
  | .object members =>
    if members.isEmpty then "\x7b\x7d"
    else "\x7b" ++ String.intercalate "," (memberLines (depth + 1) members)
      ++ newLine depth ++ "\x7d"

/-- The items of an array, a line for each. -/
def itemLines (depth : Nat) : List Value → List String
  | [] => []
  | v :: vs => (newLine depth ++ v.layout depth) :: itemLines depth vs

/-- The members of an object, a line for each. -/
def memberLines (depth : Nat) : List (String × Value) → List String
  | [] => []
  | (name, v) :: ms =>
    (newLine depth ++ quoted name ++ ": " ++ v.layout depth)
      :: memberLines depth ms

end

/-- A value as the text of a file. -/
def Value.text (v : Value) : String := v.layout 0

end TimedOverlay.Json
