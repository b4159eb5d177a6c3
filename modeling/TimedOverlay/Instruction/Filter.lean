/-
Instructions as filters of a graph.

A filter is its name and a list of options between colons. Its time gate
is the last option: an expression over the time `t` of a frame, between
quotes, so that the comma in it does not end the filter. Numbers have at
most three places.
-/
import TimedOverlay.Instruction.Basic
import TimedOverlay.Instruction.Escape
import TimedOverlay.Decimal.Places

namespace TimedOverlay

/-- The expression that is true inside a window. -/
def Window.gate (w : Window) : String :=
  "between(t," ++ w.start.thousandths ++ "," ++ w.stop.thousandths ++ ")"

/-- A position of a text; only the renderer knows the width it is
relative to. -/
def Anchor.expression : Anchor → String
  | .left x => toString x
  | .center x => toString x ++ "-text_w/2"
  | .right x => toString x ++ "-text_w"

namespace Drawing

/-- The name of the filter that draws. -/
def filterName : Drawing → String
  | .box .. => "drawbox"
  | .text .. => "drawtext"
  | .line .. => "drawline"

/-- A color with its opacity. -/
def blended (c : Color) (opacity : Binary64) : String :=
  c.literal ++ "@" ++ opacity.thousandths

/-- The options of a filter, without its gate: names and values. -/
def options : Drawing → List (String × String)
  | .box r color style =>
    [("x", toString r.x), ("y", toString r.y), ("w", toString r.width),
      ("h", toString r.height)]
    ++ match style with
      | .fill opacity => [("color", blended color opacity), ("t", "fill")]
      | .outline n => [("color", color.literal), ("t", toString n)]
  | .text s anchor y fontSize color opacity =>
    [("text", String.ofList (Escape.text s.toList)),
      ("x", anchor.expression), ("y", toString y),
      ("fontsize", toString fontSize),
      ("fontcolor", if opacity.lt 1 then blended color opacity.orZero
        else color.literal)]
  | .line x₁ y₁ x₂ y₂ color n =>
    [("x1", toString x₁), ("y1", toString y₁), ("x2", toString x₂),
      ("y2", toString y₂), ("color", color.literal), ("t", toString n)]

end Drawing

namespace Instruction

/-- The options of a filter in order. -/
def options (i : Instruction) : List (String × String) :=
  i.drawing.options ++ [("enable", "'" ++ i.window.gate ++ "'")]

/-- The text of a filter. -/
def text (i : Instruction) : String :=
  i.drawing.filterName ++ "="
    ++ String.intercalate ":" (i.options.map fun (n, v) => n ++ "=" ++ v)

end Instruction

end TimedOverlay
