/-
Loose values.

An editor writes what it has: a number may come as text with a unit
behind it, a truth value as a word or a digit, a label as a number. A
loose reader takes all of these, and gives nothing for what it cannot
read. It makes no difference between a field that is missing and one
that is unreadable, so a bad value costs no more than itself.
-/
import TimedOverlay.Json.Scan
import TimedOverlay.Color

namespace TimedOverlay

open Json (Value)

-- =============================================================== numbers

/-- A number as it may come: as one, as text, or as something else. -/
inductive LooseNumber where
  | number (x : Binary64)
  | text (s : String)
  | other
deriving DecidableEq

namespace LooseNumber

/-- Any value is taken; only numbers and texts can mean a number. -/
def ofValue : Value → LooseNumber
  | .number n => .number n.toBinary64
  | .string s => .text s
  | _ => .other

/-- The text of a length without its unit. -/
def withoutUnit (s : List Char) : List Char :=
  let t := Text.trim s
  Text.trim ((Text.before? ['p', 'x'] t).getD t)

/-- The finite number that is meant, if there is one. -/
def value? (n : LooseNumber) : Option Binary64 :=
  let x := match n with
    | .number x => some x
    | .text s => Binary64.numeral? (withoutUnit s.toList)
    | .other => none
  x.filter Binary64.isFinite

end LooseNumber

namespace Loose

/-- The number of a field. -/
def number? (field : Option Value) : Option Binary64 :=
  field.bind fun v => (LooseNumber.ofValue v).value?

/-- The numbers of a list, without those that cannot be read. -/
def numbers : Option Value → List Binary64
  | some (.array items) => items.filterMap fun v => number? (some v)
  | _ => []

-- ================================================================= words

/-- The string of a field. -/
def string? : Option Value → Option String
  | some (.string s) => some s
  | _ => none

/-- The text of a field: a string, or a number or truth value as JSON
writes it. -/
def text? : Option Value → Option String
  | some (.string s) => some s
  | some (.number n) => some n.text
  | some (.bool b) => some (if b then "true" else "false")
  | _ => none

/-- The truth value of a field: one as such, its name, or 0 or 1. -/
def boolean? : Option Value → Option Bool
  | some (.bool b) => some b
  | some (.string s) =>
    let word := Text.keyword s
    if word = "true" then some true
    else if word = "false" then some false
    else none
  | some (.number n) =>
    let x := n.toBinary64
    if x.same 0 then some false
    else if x.same 1 then some true
    else none
  | _ => none

end Loose

end TimedOverlay
