/-
The shortest text of a double.

Of all decimals that read back as the same double, the ones with the
fewest digits are taken, and of these the nearest to the exact value.
The search tries one digit, two digits, and so on: at each length only
the two neighbours of the value on that decimal grid can be nearest, and
seventeen digits always suffice.

The layout is the usual one of data formats: plain digits, with a `.0`
behind a whole number, for exponents from -5 to 15, and one digit before
the point and a signed exponent outside of these.
-/
import TimedOverlay.Decimal.Basic

namespace TimedOverlay.Decimal

open Magnitude (unitsPerOne)

-- =============================================================== digits

/-- Places by which every size is raised above 1 to measure it. -/
def measurePlaces : Nat := 340

/-- How many digits the value of a positive size has before its point;
negative for zeros behind it. -/
def pointOf (m : Magnitude) : Int :=
  width (m.units * 10 ^ measurePlaces / unitsPerOne) - measurePlaces

/-- The neighbours below and above a size on the grid of `10 ^ exponent`,
nearer one first, the even one first at equal distance. -/
def neighbours (m : Magnitude) (exponent : Int) : List Nat :=
  let num := m.units * 10 ^ (-exponent).toNat
  let den := unitsPerOne * 10 ^ exponent.toNat
  let low := num / den
  let near := roundHalfEven num den
  if near = low then [low, low + 1] else [low + 1, low]

/-- A decimal with `count` digits that reads back as the size. -/
def ofCount? (m : Magnitude) (count : Nat) : Option Decimal :=
  let exponent := pointOf m - count
  (neighbours m exponent).findSome? fun c =>
    let d : Decimal := ⟨false, c, exponent⟩
    if d.toBinary64 = .finite false m then some d else none

/-- The shortest decimal that reads back as a positive size. -/
def shortest (m : Magnitude) : Decimal :=
  ((List.range 17).findSome? fun n => ofCount? m (n + 1)).getD
    ⟨false, 0, 0⟩

-- =============================================================== layout

/-- A coefficient without the zeros at its end, which move into the
exponent. -/
def strip (digits : List Char) (exponent : Int) : List Char × Int :=
  let kept := (digits.reverse.dropWhile (· = '0')).reverse
  (kept, exponent + (digits.length - kept.length : Nat))

/-- Digits in front of a power of ten, laid out as a number. -/
def layout (digits : List Char) (exponent : Int) : List Char :=
  let lead := digits.length + exponent - 1
  if -5 ≤ lead ∧ lead < 16 then
    if 0 ≤ exponent then
      digits ++ List.replicate exponent.toNat '0' ++ ['.', '0']
    else if 0 ≤ lead then
      digits.take (lead + 1).toNat ++ '.' :: digits.drop (lead + 1).toNat
    else
      '0' :: '.' :: List.replicate (-lead - 1).toNat '0' ++ digits
  else
    let fraction := match digits.drop 1 with
      | [] => []
      | ds => '.' :: ds
    digits.take 1 ++ fraction ++ 'e' :: (if lead < 0 then '-' else '+')
      :: Nat.toDigits 10 lead.natAbs

end TimedOverlay.Decimal

namespace TimedOverlay

/-- The shortest text that reads back as a double; words for what is not
finite. -/
def Binary64.shortestText : Binary64 → String
  | .nan => "NaN"
  | .infinite s => if s then "-inf" else "inf"
  | .finite s m =>
    let sign := if s then ['-'] else []
    let digits :=
      if m.units = 0 then ['0', '.', '0']
      else
        let d := Decimal.shortest m
        let (digits, exponent) :=
          Decimal.strip (Nat.toDigits 10 d.coefficient) d.exponent
        Decimal.layout digits exponent
    String.ofList (sign ++ digits)

end TimedOverlay
