/-
Scaling components from the canvas they were drawn on to the frame.

Positions and sizes follow the factor of their axis. Strokes follow the
smaller factor, so that they never grow out of a shape that shrinks, and
the height of letters follows the vertical one. The blur of a shadow
stays as it is.
-/
import TimedOverlay.Component.Basic

namespace TimedOverlay

variable (sx sy : Binary64)

/-- A point, each coordinate by its axis. -/
def Point.scale (p : Point) : Point := ⟨p.x * sx, p.y * sy⟩

/-- A size, each length by its axis. -/
def Size.scale (s : Size) : Size := ⟨s.width * sx, s.height * sy⟩

/-- A shadow keeps its blur and moves with its shape. -/
def Shadow.scale (s : Shadow) : Shadow :=
  { s with offsetX := s.offsetX * sx, offsetY := s.offsetY * sy }

/-- A shape: its border is a stroke. -/
def ShapeStyle.scale (s : ShapeStyle) : ShapeStyle :=
  { s with
    borderWidth := s.borderWidth * sx.min sy
    shadow := s.shadow.map (Shadow.scale sx sy) }

/-- A text: its letters follow the height of the frame. -/
def TextStyle.scale (s : TextStyle) : TextStyle :=
  { s with
    fontSize := s.fontSize * sy
    background := s.background.map (ShapeStyle.scale sx sy)
    shadow := s.shadow.map (Shadow.scale sx sy) }

/-- A line: its ends are points, its width is a stroke. -/
def Segment.scale (s : Segment) : Segment :=
  { s with
    start := s.start.scale sx sy
    stop := s.stop.scale sx sy
    style := { s.style with width := s.style.width * sx.min sy } }

/-- A content; pictures have no lengths of their own. -/
def Content.scale : Content → Content
  | .rectangle style => .rectangle (style.scale sx sy)
  | .circle style => .circle (style.scale sx sy)
  | .text block => .text { block with style := block.style.scale sx sy }
  | .picture p => .picture p
  | .line segment => .line (segment.scale sx sy)

/-- A component: its box and its content. -/
def Component.scale (c : Component) : Component :=
  { c with
    position := c.position.scale sx sy
    size := c.size.scale sx sy
    content := c.content.scale sx sy }

end TimedOverlay
