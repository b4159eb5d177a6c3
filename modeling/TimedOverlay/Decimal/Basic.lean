/-
Decimal numbers and their spellings.

A decimal is a coefficient and a power of ten, held exactly; the double
it stands for is the nearest one. `numeral?` reads the spellings that a
number written as text may have: an optional sign, digits with an
optional point on either side of them, an optional exponent, and the
words for the infinities and for what is no number. There are no blanks,
no separators and no other bases.
-/
import TimedOverlay.Binary64.Arithmetic
import TimedOverlay.Text.Basic

namespace TimedOverlay

/-- The number `coefficient * 10 ^ exponent`, with a sign. -/
structure Decimal where
  negative : Bool
  coefficient : Nat
  exponent : Int
deriving DecidableEq

namespace Decimal

-- ============================================================== digits

/-- The value of a decimal digit. -/
def digitValue (c : Char) : Nat := c.toNat - '0'.toNat

/-- The value of a run of decimal digits. -/
def digitsValue (ds : List Char) : Nat :=
  ds.foldl (fun n c => 10 * n + digitValue c) 0

/-- How many decimal digits a number has; zero has one. -/
def width (n : Nat) : Nat := (Nat.toDigits 10 n).length

/-- The digits at the start of a text, and the rest of it. -/
def takeDigits (s : List Char) : List Char × List Char :=
  (s.takeWhile Char.isDigit, s.dropWhile Char.isDigit)

/-- The decimal with these digits before and after the point. -/
def ofDigits (negative : Bool) (whole fraction : List Char)
    (exponent : Int) : Decimal :=
  ⟨negative, digitsValue (whole ++ fraction), exponent - fraction.length⟩

-- =============================================================== value

/-- The double nearest to a decimal. Numbers of more than 309 places
before the point are beyond every double, and those that start more than
324 places behind it are nearer to zero than to any other. -/
def toBinary64 (d : Decimal) : Binary64 :=
  let point := d.exponent + width d.coefficient
  if d.coefficient = 0 then .finite d.negative .zero
  else if 309 < point then .infinite d.negative
  else if point < -324 then .finite d.negative .zero
  else if 0 ≤ d.exponent then
    .ofUnits d.negative
      (d.coefficient * 10 ^ d.exponent.toNat * Magnitude.unitsPerOne) 1
  else
    .ofUnits d.negative (d.coefficient * Magnitude.unitsPerOne)
      (10 ^ (-d.exponent).toNat)

-- ============================================================ spellings

/-- A sign at the start of a text, and the rest of it. -/
def takeSign : List Char → Bool × List Char
  | '-' :: rest => (true, rest)
  | '+' :: rest => (false, rest)
  | s => (false, s)

/-- An exponent that fills the text: nothing at all, or its mark, a sign
and digits. -/
def exponent? : List Char → Option Int
  | [] => some 0
  | mark :: rest =>
    let (negative, digits) := takeSign rest
    if (mark = 'e' || mark = 'E') && digits ≠ [] && digits.all Char.isDigit
    then
      let n : Int := digitsValue digits
      some (if negative then -n else n)
    else none

/-- The digits behind a point, if there is one, and the rest. -/
def takeFraction : List Char → List Char × List Char
  | '.' :: rest => takeDigits rest
  | s => ([], s)

/-- A decimal without its sign. -/
def unsigned? (negative : Bool) (s : List Char) : Option Decimal :=
  let (whole, rest) := takeDigits s
  let (fraction, rest) := takeFraction rest
  if whole = [] ∧ fraction = [] then none
  else (exponent? rest).map (ofDigits negative whole fraction)

end Decimal

/-- The double that a text spells, if it spells one. -/
def Binary64.numeral? (s : List Char) : Option Binary64 :=
  let (negative, rest) := Decimal.takeSign s
  let word := Text.fold rest
  if word = "inf".toList ∨ word = "infinity".toList then
    some (.infinite negative)
  else if word = "nan".toList then some .nan
  else (Decimal.unsigned? negative rest).map Decimal.toBinary64

end TimedOverlay
