/-
Drawing instructions, each active in one window of time.

Lengths are whole pixels. A number is brought to pixels by rounding, a
half away from zero; the result is held in the range of 64-bit integers,
and what is not finite counts as zero.
-/
import TimedOverlay.Color
import TimedOverlay.Window

namespace TimedOverlay

/-- A box in pixels. -/
structure Rect where
  x : Int
  y : Int
  width : Int
  height : Int
deriving DecidableEq

/-- How a box is drawn: filled with some opacity, or outlined. -/
inductive BoxStyle where
  | fill (opacity : Binary64)
  | outline (thickness : Int)
deriving DecidableEq

/-- Where a text is placed: the pixel of its left edge, its center or
its right edge. -/
inductive Anchor where
  | left (x : Int)
  | center (x : Int)
  | right (x : Int)
deriving DecidableEq

/-- What an instruction draws, apart from when. -/
inductive Drawing where
  | box (rect : Rect) (color : Color) (style : BoxStyle)
  | text (text : String) (anchor : Anchor) (y : Int) (fontSize : Int)
      (color : Color) (opacity : Binary64)
  | line (startX startY stopX stopY : Int) (color : Color) (thickness : Int)
deriving DecidableEq

/-- A drawing and the window in which it is shown. -/
structure Instruction where
  drawing : Drawing
  window : Window
deriving DecidableEq

-- ================================================================ pixels

/-- A whole number held in the range of 64-bit integers. -/
def saturate (n : Int) : Int :=
  if n < -2 ^ 63 then -2 ^ 63 else if 2 ^ 63 - 1 < n then 2 ^ 63 - 1 else n

/-- A length in pixels. -/
def Binary64.pixels (x : Binary64) : Int :=
  match x.round? with
  | some n => saturate n
  | none => 0

end TimedOverlay
