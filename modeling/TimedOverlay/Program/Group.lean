/-
What a component draws in one window.

The drawings are told apart from the window they are shown in
(`drawings`), from back to front. The instructions are made in
`TimedOverlay.Program.Synthesis`, window by window.

A shape is its shadow, its fill and its outline. The shadow is a stack
of boxes, each a pixel wider than the last on every side and fainter; a
text has copies of itself for a shadow, which step out from it in turns
to either side. There is no filter for an ellipse, so a circle is its
bounding box; nor one for a line, so a line along an axis is a box
around it. A box without width or height would be taken for the whole
frame, and is never drawn.
-/
import TimedOverlay.Instruction.Basic
import TimedOverlay.Component.Basic

namespace TimedOverlay

-- =============================================================== shadows

/-- The widest blur that is drawn. -/
def Shadow.blurLimit : Binary64 := 12

/-- The number of layers of a shadow: one for two pixels of blur, and at
least one, at most `limit`. -/
def Shadow.steps (limit : Nat) (s : Shadow) : Nat :=
  let n := ((s.blur.clamp 0 blurLimit / 2).ceil?.getD 0).toNat
  if n < 1 then 1 else if limit < n then limit else n

/-- The opacity of layer `i` out of `steps`. -/
def Shadow.fade (s : Shadow) (i steps : Nat) : Binary64 :=
  s.opacity * (1 - .ofNat i / .ofNat (steps + 1))

/-- The most layers that the shadow of a shape has. -/
def shapeShadowLimit : Nat := 6

/-- The most layers that the shadow of a text has. -/
def textShadowLimit : Nat := 8

-- ================================================================ shapes

namespace Rect

/-- A box moved and then grown by `n` pixels on every side. -/
def grow (r : Rect) (dx dy n : Int) : Rect :=
  ⟨r.x + dx - n, r.y + dy - n, r.width + 2 * n, r.height + 2 * n⟩

/-- Whether a box has any area. -/
def hasArea (r : Rect) : Bool := 0 < r.width && 0 < r.height

end Rect

/-- The box of a component. -/
def Component.rect (c : Component) : Rect :=
  ⟨c.position.x.pixels, c.position.y.pixels, c.size.width.pixels,
    c.size.height.pixels⟩

namespace ShapeStyle

/-- The layers of the shadow, the innermost one first. -/
def shadowDrawings (s : ShapeStyle) (r : Rect) : List Drawing :=
  match s.shadow with
  | none => []
  | some shadow =>
    let steps := shadow.steps shapeShadowLimit
    (List.range steps).map fun (i : Nat) =>
      .box (r.grow shadow.offsetX.pixels shadow.offsetY.pixels (i : Int))
        shadow.color (.fill (shadow.fade i steps))

/-- The fill, if there is a color to fill with. -/
def fillDrawings (s : ShapeStyle) (r : Rect) : List Drawing :=
  match s.fill with
  | .solid color => [.box r color (.fill (s.opacity.clamp 0 1))]
  | .transparent => []

/-- The outline, if it is at least a pixel wide. -/
def borderDrawings (s : ShapeStyle) (r : Rect) : List Drawing :=
  if 0 < s.borderWidth.pixels then
    [.box r s.borderColor (.outline s.borderWidth.pixels)]
  else []

/-- A shape on a box, if the box has any area. -/
def drawings (s : ShapeStyle) (r : Rect) : List Drawing :=
  if r.hasArea then
    s.shadowDrawings r ++ s.fillDrawings r ++ s.borderDrawings r
  else []

end ShapeStyle

-- ================================================================= texts

namespace TextBlock

/-- Where a text is placed in the box of its component, moved by some
pixels. -/
def anchor (b : TextBlock) (position : Point) (size : Size) (dx : Int) :
    Anchor :=
  match b.style.alignment with
  | .left => .left (position.x.pixels + dx)
  | .center => .center ((position.x + size.width / 2).pixels + dx)
  | .right => .right ((position.x + size.width).pixels + dx)

/-- The height of letters; never less than a pixel. -/
def fontPixels (b : TextBlock) : Int :=
  let n := b.style.fontSize.pixels
  if n < 1 then 1 else n

/-- How far layer `i` of a shadow steps out: up and left for odd layers,
down and right for even ones. -/
def spread (i : Nat) : Int := if i % 2 = 1 then -(i : Int) else i

variable (b : TextBlock) (position : Point) (size : Size)

/-- A copy of the text, moved by some pixels. -/
def copy (dx dy : Int) (color : Color) (opacity : Binary64) : Drawing :=
  .text b.text (b.anchor position size dx) (position.y.pixels + dy)
    b.fontPixels color opacity

/-- The copies of the text that are its shadow. -/
def shadowDrawings : List Drawing :=
  match b.style.shadow with
  | none => []
  | some shadow =>
    let steps := shadow.steps textShadowLimit
    (List.range steps).map fun (i : Nat) =>
      b.copy position size (shadow.offsetX.pixels + spread i)
        (shadow.offsetY.pixels + spread i) shadow.color (shadow.fade i steps)

/-- A text on a box: its background, its shadow, itself. -/
def drawings (r : Rect) : List Drawing :=
  ((b.style.background.map (·.drawings r)).getD [])
    ++ b.shadowDrawings position size
    ++ [b.copy position size 0 0 b.style.fontColor 1]

end TextBlock

-- ================================================================= lines

namespace Segment

/-- The thickness of a line; never less than a pixel. -/
def thickness (s : Segment) : Int :=
  let n := s.style.width.pixels
  if n < 1 then 1 else n

/-- The box of a line along an axis. Its numbers are whole numbers of any
size; they are those of 64 bits as long as these do not overflow. -/
def rect? (s : Segment) : Option Rect :=
  let x₁ := s.start.x.pixels
  let y₁ := s.start.y.pixels
  let x₂ := s.stop.x.pixels
  let y₂ := s.stop.y.pixels
  let n := s.thickness
  if y₁ = y₂ then
    some ⟨min x₁ x₂, y₁ - n.tdiv 2, max ((x₂ - x₁).natAbs : Int) n, n⟩
  else if x₁ = x₂ then
    some ⟨x₁ - n.tdiv 2, min y₁ y₂, n, (y₂ - y₁).natAbs⟩
  else none

/-- A line: a box if it lies along an axis. -/
def drawings (s : Segment) : List Drawing :=
  match s.rect? with
  | some r => [.box r s.style.color (.fill 1)]
  | none =>
    [.line s.start.x.pixels s.start.y.pixels s.stop.x.pixels s.stop.y.pixels
      s.style.color s.thickness]

end Segment

-- ============================================================ components

namespace Component

/-- What a component draws, whenever it is shown. -/
def drawings (c : Component) : List Drawing :=
  match c.content with
  | .rectangle style => style.drawings c.rect
  | .circle style => style.drawings c.rect
  | .text block => block.drawings c.position c.size c.rect
  | .picture _ => []
  | .line segment => segment.drawings

/-- The instructions of a component for one window. -/
def group (c : Component) (w : Window) : List Instruction :=
  c.drawings.map (⟨·, w⟩)

end Component

end TimedOverlay
