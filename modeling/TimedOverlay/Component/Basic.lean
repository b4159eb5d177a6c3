/-
Overlay components: what is drawn over a video, where, how and when.

Each kind of component carries the style it needs and no other. All
lengths are in pixels of the frame.
-/
import TimedOverlay.Color

namespace TimedOverlay

/-- A place in the frame, counted from its upper left corner. -/
structure Point where
  x : Binary64
  y : Binary64
deriving DecidableEq

/-- The width and height of a box. -/
structure Size where
  width : Binary64
  height : Binary64
deriving DecidableEq

-- ================================================================ styles

/-- A soft shadow: a color, how far it is moved, how wide it spreads and
how opaque it is. -/
structure Shadow where
  color : Color
  offsetX : Binary64
  offsetY : Binary64
  blur : Binary64
  opacity : Binary64
deriving DecidableEq

/-- How a rectangle or circle is drawn. The opacity is that of the fill;
a border of no width is not drawn. -/
structure ShapeStyle where
  fill : Paint
  borderColor : Color
  borderWidth : Binary64
  opacity : Binary64
  shadow : Option Shadow
deriving DecidableEq

/-- The edge of a component's box that its text is aligned with. -/
inductive Alignment where
  | left
  | center
  | right
deriving DecidableEq

/-- How a text is drawn. The background is drawn on the box of the
component, the shadow is that of the letters. -/
structure TextStyle where
  fontSize : Binary64
  fontColor : Color
  alignment : Alignment
  background : Option ShapeStyle
  shadow : Option Shadow
deriving DecidableEq

/-- How a line is drawn. -/
structure LineStyle where
  color : Color
  width : Binary64
deriving DecidableEq

-- ============================================================ components

/-- A text and its style. -/
structure TextBlock where
  text : String
  style : TextStyle
deriving DecidableEq

/-- A reference to an image. -/
structure Picture where
  image : Option String
deriving DecidableEq

/-- A line between two points. -/
structure Segment where
  start : Point
  stop : Point
  style : LineStyle
deriving DecidableEq

/-- The kinds of components. -/
inductive Kind where
  | rectangle
  | circle
  | text
  | picture
  | line
deriving DecidableEq

/-- What a component of each kind carries. -/
inductive Content where
  | rectangle (style : ShapeStyle)
  | circle (style : ShapeStyle)
  | text (block : TextBlock)
  | picture (picture : Picture)
  | line (segment : Segment)
deriving DecidableEq

/-- A timed overlay. Position and size are those of its box; a line has
end points of its own. The times are read by `Window.resolve`. -/
structure Component where
  id : String
  position : Point
  size : Size
  visible : Bool
  timestamps : List Binary64
  content : Content
deriving DecidableEq

-- ============================================================== defaults

/-- One half. -/
def half : Binary64 := (Decimal.mk false 5 (-1)).toBinary64

namespace Point

/-- The upper left corner of the frame. -/
def origin : Point := ⟨0, 0⟩

end Point

namespace Shadow

/-- The shadow of a shape lies right behind it. -/
def standard : Shadow := ⟨.black, 0, 0, 4, half⟩

/-- The shadow of a text lies a little off the text. -/
def ofText : Shadow :=
  { standard with
    offsetX := 2, offsetY := 2
    opacity := (Decimal.mk false 6 (-1)).toBinary64 }

end Shadow

/-- A shape is white, opaque and outlined by one black pixel. -/
def ShapeStyle.standard : ShapeStyle := ⟨.solid .white, .black, 1, 1, none⟩

/-- A text is black, sixteen pixels high and plain. -/
def TextStyle.standard : TextStyle := ⟨16, .black, .left, none, none⟩

/-- A line is white and two pixels wide. -/
def LineStyle.standard : LineStyle := ⟨.white, 2⟩

/-- A text that says what it is. -/
def TextBlock.standard : TextBlock := ⟨"Text", .standard⟩

/-- A short line along the upper edge of the frame. -/
def Segment.standard : Segment := ⟨.origin, ⟨100, 0⟩, .standard⟩

namespace Alignment

/-- The alignment that a text names; left if it names none. -/
def parse (s : String) : Alignment :=
  let word := Text.keyword s
  if word = "center" ∨ word = "centre" then .center
  else if word = "right" ∨ word = "end" then .right
  else .left

/-- The name of an alignment. -/
def name : Alignment → String
  | .left => "left"
  | .center => "center"
  | .right => "right"

end Alignment

namespace Kind

/-- The name of a kind. -/
def name : Kind → String
  | .rectangle => "rectangle"
  | .circle => "circle"
  | .text => "text"
  | .picture => "picture"
  | .line => "line"

/-- Every kind, in the order in which reports name them. -/
def all : List Kind := [.rectangle, .circle, .text, .picture, .line]

/-- The kind of a name. -/
def ofName? (s : String) : Option Kind := all.find? (·.name = s)

/-- Names tell the kinds apart. -/
theorem ofName?_name (k : Kind) : ofName? k.name = some k := by
  cases k <;> decide

end Kind

namespace Content

/-- The kind of a content. -/
def kind : Content → Kind
  | .rectangle _ => .rectangle
  | .circle _ => .circle
  | .text _ => .text
  | .picture _ => .picture
  | .line _ => .line

/-- The standard content of a kind. -/
def standard : Kind → Content
  | .rectangle => .rectangle .standard
  | .circle => .circle .standard
  | .text => .text .standard
  | .picture => .picture ⟨none⟩
  | .line => .line .standard

end Content

/-- A visible component at the origin that is shown at no time. -/
def Component.ofContent (id : String) (content : Content) : Component :=
  ⟨id, .origin, ⟨0, 0⟩, true, [], content⟩

end TimedOverlay
