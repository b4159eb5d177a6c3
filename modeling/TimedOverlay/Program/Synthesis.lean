/-
The instructions of a component.

Each kind of component goes through its windows and pushes what is drawn
in a window, with that window, behind what the windows before it have
pushed: the layers of a shadow, then a fill, then an outline; for a text
the box behind it, its shadow and itself. What does not depend on the
window is settled before the windows are gone through: whether the box
of a shape has any area, and the box that stands for a line.

Nothing here says that the groups of two windows are alike, or that a
window is only used as a gate. Both are shown from these routines.
-/
import TimedOverlay.Program.Group

namespace TimedOverlay

-- ================================================================ shapes

namespace ShapeStyle

variable (s : ShapeStyle) (r : Rect) (w : Window) (out : Array Instruction)

/-- Push the layers of the shadow, the innermost one first. -/
def pushShadow : Array Instruction :=
  match s.shadow with
  | none => out
  | some shadow =>
    let steps := shadow.steps shapeShadowLimit
    (List.range steps).foldl
      (fun out (i : Nat) =>
        out.push
          ⟨.box (r.grow shadow.offsetX.pixels shadow.offsetY.pixels (i : Int))
            shadow.color (.fill (shadow.fade i steps)), w⟩)
      out

/-- Push the fill, if there is a color to fill with. -/
def pushFill : Array Instruction :=
  match s.fill with
  | .solid color => out.push ⟨.box r color (.fill (s.opacity.clamp 0 1)), w⟩
  | .transparent => out

/-- Push the outline, if it is at least a pixel wide. -/
def pushBorder : Array Instruction :=
  let border := s.borderWidth.pixels
  if 0 < border then out.push ⟨.box r s.borderColor (.outline border), w⟩
  else out

/-- Push a shape on a box, for one window. -/
def push : Array Instruction :=
  s.pushBorder r w (s.pushFill r w (s.pushShadow r w out))

/-- A shape on a box in some windows. A box without area is skipped
before any window is looked at. -/
def synthesize (ws : List Window) : List Instruction :=
  if r.hasArea then (ws.foldl (fun out w => s.push r w out) #[]).toList
  else []

end ShapeStyle

-- ================================================================= texts

namespace TextBlock

variable (b : TextBlock) (position : Point) (size : Size) (r : Rect)
variable (w : Window) (out : Array Instruction)

/-- Push the shape behind the text, if there is one and its box has any
area. -/
def pushBackground : Array Instruction :=
  match b.style.background with
  | none => out
  | some background => if r.hasArea then background.push r w out else out

/-- Push the copies of the text that are its shadow. -/
def pushShadow : Array Instruction :=
  match b.style.shadow with
  | none => out
  | some shadow =>
    let steps := shadow.steps textShadowLimit
    let x := shadow.offsetX.pixels
    let y := shadow.offsetY.pixels
    (List.range steps).foldl
      (fun out (i : Nat) =>
        out.push
          ⟨b.copy position size (x + spread i) (y + spread i) shadow.color
            (shadow.fade i steps), w⟩)
      out

/-- Push a text on a box, for one window. -/
def push : Array Instruction :=
  let out := b.pushBackground r w out
  let out := b.pushShadow position size w out
  out.push ⟨b.copy position size 0 0 b.style.fontColor 1, w⟩

/-- A text on a box in some windows. -/
def synthesize (ws : List Window) : List Instruction :=
  (ws.foldl (fun out w => b.push position size r w out) #[]).toList

end TextBlock

-- ================================================================= lines

/-- A line in some windows. -/
def Segment.synthesize (s : Segment) (ws : List Window) : List Instruction :=
  let box := s.rect?
  ws.map fun w =>
    match box with
    | some r => ⟨.box r s.style.color (.fill 1), w⟩
    | none =>
      ⟨.line s.start.x.pixels s.start.y.pixels s.stop.x.pixels
        s.stop.y.pixels s.style.color s.thickness, w⟩

-- ============================================================ components

/-- The instructions of a component in some windows. A picture has none,
and neither has what is hidden. -/
def Component.synthesize (c : Component) (ws : List Window) :
    List Instruction :=
  if !c.visible || ws.isEmpty then [] else
    match c.content with
    | .rectangle style => style.synthesize c.rect ws
    | .circle style => style.synthesize c.rect ws
    | .text block => block.synthesize c.position c.size c.rect ws
    | .picture _ => []
    | .line segment => segment.synthesize ws

end TimedOverlay
