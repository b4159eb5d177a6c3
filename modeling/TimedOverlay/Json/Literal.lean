/-
Numbers as they are spelled, and the numbers they are read as.

A literal that is a whole number of 64 bits is that number. Any other is
read as a double, in two steps that round: the digits that fit into 64
bits are a number (`significand`), this becomes a double, and that one is
multiplied or divided by the power of ten that it counts (`scaled?`). As
long as the number and the power of ten are doubles, only the last step
rounds, and what is read is the double nearest to what is spelled. In
general it is a neighbour of that.
-/
import TimedOverlay.Json.Error

namespace TimedOverlay.Json

/-- A number as it is spelled: its sign, its digits before and behind
the point, its exponent. -/
structure Literal where
  negative : Bool
  whole : List Char
  fraction : List Char
  exponent : Option Int
deriving DecidableEq

namespace Literal

/-- The decimal that a literal spells. -/
def decimal (l : Literal) : Decimal :=
  .ofDigits l.negative l.whole l.fraction (l.exponent.getD 0)

/-- Whether a literal is a whole number of 64 bits, and which. Minus
zero is none. -/
def integer? (l : Literal) : Option Int :=
  let n := Decimal.digitsValue l.whole
  if l.fraction ≠ [] ∨ l.exponent ≠ none then none
  else if l.negative then
    if 0 < n ∧ n ≤ 2 ^ 63 then some (-n) else none
  else if n < 2 ^ 64 then some n else none

-- ============================================================== digits

/-- A number that takes up digits as long as it fits into 64 bits, and
the digits from the first that does not go in. -/
def takeFitting (n : Nat) : List Char → Nat × List Char
  | [] => (n, [])
  | c :: ds =>
    let next := 10 * n + Decimal.digitValue c
    if next < 2 ^ 64 then takeFitting next ds else (n, c :: ds)

/-- The number that a literal is read from, and the power of ten that it
counts. The digits that are left over before the point count as tens
each. Behind the point the number takes up digits again, and what is left
over there is dropped. -/
def significand (l : Literal) : Nat × Int :=
  let (n, tens) := takeFitting 0 l.whole
  let (n, dropped) := takeFitting n l.fraction
  (n, tens.length + dropped.length - l.fraction.length)

-- ============================================================== scaling

/-- The double nearest to a power of ten. -/
def powerOfTen (k : Nat) : Binary64 := .ofNat (10 ^ k)

/-- A double times a power of ten, rounded; none when it is beyond every
double. The largest power of ten that is a double is the 308th, so a
division by a larger one is done in steps, until nothing is left to
divide. -/
def scaled? (x : Binary64) (e : Int) : Option Binary64 :=
  if e.natAbs ≤ 308 then
    if 0 ≤ e then
      (some (x * powerOfTen e.natAbs)).filter Binary64.isFinite
    else some (x / powerOfTen e.natAbs)
  else if x.same .zero then some x
  else if 0 ≤ e then none
  else scaled? (x / powerOfTen 308) (e + 308)
termination_by e.natAbs

/-- The double that a literal is read as; none when it is out of range.
An exponent of more than 31 bits settles that without any scaling. -/
def double? (l : Literal) : Option Binary64 :=
  let (n, tens) := l.significand
  let e := l.exponent.getD 0
  let size? :=
    if e.natAbs < 2 ^ 31 then scaled? (.ofNat n) (tens + e)
    else if 0 < e ∧ n ≠ 0 then none
    else some .zero
  size?.map fun x => if l.negative then -x else x

/-- The number of a literal; none when it is out of range. -/
def number? (l : Literal) : Option Number :=
  match l.integer? with
  | some n => some (.integer n)
  | none => l.double?.map .real

end Literal

end TimedOverlay.Json
