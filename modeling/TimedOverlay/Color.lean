/-
Colors and paints.

A color is opaque, with eight bits a channel. It is read from the forms
that style sheets use: a mark and three or six hexadecimal digits, or
channels in numbers between brackets. In the second form every channel
is rounded and held between 0 and 255, and what follows the third one
is passed over. A paint is a color or the word for no color at all.
-/
import TimedOverlay.Decimal.Basic

namespace TimedOverlay

/-- An opaque color. -/
structure Color where
  red : UInt8
  green : UInt8
  blue : UInt8
deriving DecidableEq

/-- What an area is filled with. -/
inductive Paint where
  | solid (c : Color)
  | transparent
deriving DecidableEq

namespace Color

def white : Color := ⟨255, 255, 255⟩
def black : Color := ⟨0, 0, 0⟩

-- =============================================================== reading

/-- The color of three or six hexadecimal digits; in the short form each
digit counts twice. -/
def ofHex? (digits : List Char) : Option Color := do
  match ← digits.mapM Text.hexValue? with
  | [r, g, b] =>
    return ⟨.ofNat (r * 17), .ofNat (g * 17), .ofNat (b * 17)⟩
  | [r, r', g, g', b, b'] =>
    return ⟨.ofNat (r * 16 + r'), .ofNat (g * 16 + g'), .ofNat (b * 16 + b')⟩
  | _ => none

/-- A channel from a number: rounded, a half away from zero, and held in
range; 0 for what is no number. -/
def channel (x : Binary64) : UInt8 :=
  match x with
  | .nan => 0
  | .infinite negative => if negative then 0 else 255
  | .finite _ _ =>
    let n := x.round?.getD 0
    if n < 0 then 0 else if 255 < n then 255 else .ofNat n.toNat

/-- The color of the text between the brackets of `rgb(...)`. -/
def ofChannels? (body : List Char) : Option Color :=
  match (Text.split ',' body).map fun s => Binary64.numeral? (Text.trim s) with
  | some r :: some g :: some b :: _ => some ⟨channel r, channel g, channel b⟩
  | _ => none

/-- The color that a text names, if it names one. -/
def parse? (s : String) : Option Color :=
  let t := Text.trim s.toList
  match t with
  | '#' :: digits => ofHex? digits
  | '0' :: 'x' :: digits => ofHex? digits
  | '0' :: 'X' :: digits => ofHex? digits
  | t => do
    let folded := Text.fold t
    let body ← (Text.after? "rgba(".toList folded).or
      (Text.after? "rgb(".toList folded)
    ofChannels? (← Text.before? [')'] body)

-- =============================================================== literal

/-- Two hexadecimal digits. -/
def hexPair (n : UInt8) : List Char :=
  [Text.hexDigit (n.toNat / 16), Text.hexDigit (n.toNat % 16)]

/-- The literal of a color, `0xrrggbb`. -/
def literal (c : Color) : String :=
  String.ofList
    ('0' :: 'x' :: hexPair c.red ++ hexPair c.green ++ hexPair c.blue)

end Color

namespace Paint

/-- The paint that a text names. -/
def parse? (s : String) : Option Paint :=
  if Text.keyword s = "transparent" then some .transparent
  else (Color.parse? s).map .solid

/-- The color of a paint that has one. -/
def color? : Paint → Option Color
  | .solid c => some c
  | .transparent => none

end Paint

end TimedOverlay
