/-
Numbers with a fixed number of places.

The text shows the exact value rounded to whole units of the last place,
a half going to the even neighbour. Two forms are in use: with every
place shown (`fixed`), and with at most three places, from which the
zeros at the end are dropped (`thousandths`). The second form is
canonical: it never shows a negative zero, a point without digits, or a
digit that carries nothing.
-/
import TimedOverlay.Decimal.Basic

namespace TimedOverlay.Binary64

open Magnitude (unitsPerOne)

/-- A finite size in units of the last of `places` decimal places. -/
def inPlaces (places : Nat) (m : Magnitude) : Nat :=
  roundHalfEven (m.units * 10 ^ places) unitsPerOne

/-- The last `places` digits of a number, zeros included. -/
def lastDigits (places n : Nat) : List Char :=
  let ds := Nat.toDigits 10 (n % 10 ^ places)
  List.replicate (places - ds.length) '0' ++ ds

/-- A number with exactly `places` places behind the point; words for
what is not finite. -/
def fixed (places : Nat) : Binary64 → String
  | .nan => "NaN"
  | .infinite s => if s then "-inf" else "inf"
  | .finite s m =>
    let n := inPlaces places m
    let whole := Nat.toDigits 10 (n / 10 ^ places)
    let fraction :=
      if places = 0 then [] else '.' :: lastDigits places n
    String.ofList ((if s then ['-'] else []) ++ whole ++ fraction)

-- ========================================================== thousandths

/-- The digits of `n` thousandths behind the point, with the point, and
without the zeros at their end. -/
def fractionDigits (n : Nat) : List Char :=
  match ((lastDigits 3 n).reverse.dropWhile (· = '0')).reverse with
  | [] => []
  | ds => '.' :: ds

/-- The number of thousandths that is written for a finite number. -/
def thousandthsOf (s : Bool) (m : Magnitude) : Int :=
  if s then -(inPlaces 3 m : Int) else inPlaces 3 m

/-- The canonical text of a signed number of thousandths. -/
def thousandthsText (n : Int) : String :=
  String.ofList ((if n < 0 then ['-'] else [])
    ++ Nat.toDigits 10 (n.natAbs / 1000) ++ fractionDigits n.natAbs)

/-- A number with at most three places, zeros at the end dropped; zero
for what is not finite. -/
def thousandths : Binary64 → String
  | .finite s m => thousandthsText (thousandthsOf s m)
  | _ => "0"

end TimedOverlay.Binary64
