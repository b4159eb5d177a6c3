/-
Nodes: components as an editor writes them.

Reading a node never fails. Every field stands for itself, and one that
is missing or unreadable is absent (`Loose.lean`); the defaults come in
when a node becomes a component. Only a node of no known kind becomes
none.
-/
import TimedOverlay.Job.Loose
import TimedOverlay.Component.Basic

namespace TimedOverlay

open Json (Value)

-- ================================================================ points

/-- A point of which each coordinate may be absent. -/
structure LoosePoint where
  x : Option Binary64
  y : Option Binary64
deriving DecidableEq

namespace LoosePoint

/-- The names of the coordinates. -/
def names : List String := ["x", "y"]

/-- The point of a field. -/
def ofField (field : Option Value) : LoosePoint :=
  let get name := field.bind fun v => v.fields names name
  ⟨Loose.number? (get "x"), Loose.number? (get "y")⟩

/-- The point with the coordinates of another where it has none. -/
def orElse (p : LoosePoint) (other : Point) : Point :=
  ⟨p.x.getD other.x, p.y.getD other.y⟩

end LoosePoint

-- ================================================================ styles

/-- The style of a node. -/
structure StyleSheet where
  fill : Option Paint
  hasBackground : Bool
  borderColor : Option Color
  borderWidth : Option Binary64
  opacity : Option Binary64
  fontSize : Option Binary64
  fontColor : Option Color
  alignment : Option Alignment
  hasShadow : Bool
  shadowColor : Option Color
  shadowOffsetX : Option Binary64
  shadowOffsetY : Option Binary64
  shadowBlur : Option Binary64
  shadowOpacity : Option Binary64
deriving DecidableEq

namespace StyleSheet

/-- The names of the fields, in the order of an array. -/
def names : List String :=
  ["fillColor", "fillType", "borderColor", "borderWidth", "opacity",
    "fontSize", "fontColor", "textAlign", "hasShadow", "shadowColor",
    "shadowOffsetX", "shadowOffsetY", "shadowBlur", "shadowOpacity"]

/-- The color of a field. -/
def color? (field : Option Value) : Option Color :=
  (Loose.string? field).bind Color.parse?

/-- Whether a type of filling asks for a background: any does but an
empty one and `none`. -/
def asksBackground (type : String) : Bool :=
  let word := Text.keyword type
  word ≠ "" && word ≠ "none"

/-- The style of a field. -/
def ofField (field : Option Value) : StyleSheet :=
  let get name := field.bind fun v => v.fields names name
  let color name := color? (get name)
  let number name := Loose.number? (get name)
  { fill := (Loose.string? (get "fillColor")).bind Paint.parse?
    hasBackground := ((Loose.string? (get "fillType")).map asksBackground).getD false
    borderColor := color "borderColor"
    borderWidth := number "borderWidth"
    opacity := number "opacity"
    fontSize := number "fontSize"
    fontColor := color "fontColor"
    alignment := (Loose.string? (get "textAlign")).map Alignment.parse
    hasShadow := (Loose.boolean? (get "hasShadow")).getD false
    shadowColor := color "shadowColor"
    shadowOffsetX := number "shadowOffsetX"
    shadowOffsetY := number "shadowOffsetY"
    shadowBlur := number "shadowBlur"
    shadowOpacity := number "shadowOpacity" }

variable (s : StyleSheet)

/-- The shadow of a style, if it has one, with a given default. -/
def shadow? (d : Shadow) : Option Shadow :=
  if s.hasShadow then
    some
      { color := s.shadowColor.getD d.color
        offsetX := s.shadowOffsetX.getD d.offsetX
        offsetY := s.shadowOffsetY.getD d.offsetY
        blur := s.shadowBlur.getD d.blur
        opacity := (s.shadowOpacity.getD d.opacity).clamp 0 1 }
  else none

/-- The style of a shape. An opacity is held between 0 and 1. -/
def shape : ShapeStyle :=
  let d := ShapeStyle.standard
  { fill := s.fill.getD d.fill
    borderColor := s.borderColor.getD d.borderColor
    borderWidth := s.borderWidth.getD d.borderWidth
    opacity := (s.opacity.getD d.opacity).clamp 0 1
    shadow := s.shadow? .standard }

/-- The box behind a text: drawn if it is asked for and has a color. It
has no shadow of its own, and no border unless one is asked for. -/
def background? : Option ShapeStyle :=
  match s.fill with
  | some (.solid c) =>
    if s.hasBackground then
      some
        { s.shape with
          fill := .solid c
          borderWidth := s.borderWidth.getD 0
          shadow := none }
    else none
  | _ => none

/-- The style of a text. -/
def text : TextStyle :=
  let d := TextStyle.standard
  { fontSize := s.fontSize.getD d.fontSize
    fontColor := s.fontColor.getD d.fontColor
    alignment := s.alignment.getD d.alignment
    background := s.background?
    shadow := s.shadow? .ofText }

/-- The style of a line is that of a border. -/
def line : LineStyle :=
  let d := LineStyle.standard
  { color := s.borderColor.getD d.color
    width := s.borderWidth.getD d.width }

end StyleSheet

-- ================================================================= nodes

/-- What a node holds beside its box. -/
structure NodeData where
  timestamps : List Binary64
  style : StyleSheet
  text : Option String
  start : LoosePoint
  stop : LoosePoint
  image : Option String
  visible : Option Bool
deriving DecidableEq

/-- A component as it was written. -/
structure Node where
  id : String
  kind : Option Kind
  position : LoosePoint
  width : Option Binary64
  height : Option Binary64
  data : NodeData
deriving DecidableEq

namespace NodeData

/-- The names of the fields, in the order of an array. -/
def names : List String :=
  ["timestamps", "styles", "text", "startPoint", "endPoint", "image",
    "visible"]

/-- The data of a field. -/
def ofField (field : Option Value) : NodeData :=
  let get name := field.bind fun v => v.fields names name
  { timestamps := Loose.numbers (get "timestamps")
    style := .ofField (get "styles")
    text := Loose.text? (get "text")
    start := .ofField (get "startPoint")
    stop := .ofField (get "endPoint")
    image := Loose.string? (get "image")
    visible := Loose.boolean? (get "visible") }

end NodeData

namespace Node

/-- The names of the fields, in the order of an array. -/
def names : List String :=
  ["id", "type", "position", "width", "height", "data"]

/-- The node with these fields. -/
def ofFields (get : String → Option Value) : Node :=
  { id := (Loose.text? (get "id")).getD ""
    kind := (Loose.text? (get "type")).bind fun s =>
      Kind.ofName? (Text.keyword s)
    position := .ofField (get "position")
    width := Loose.number? (get "width")
    height := Loose.number? (get "height")
    data := .ofField (get "data") }

/-- The node of a value. A value that has no fields is none. -/
def ofValue? (v : Value) : Option Node := (v.fields? names).map ofFields

/-- What a node of a kind carries, every default applied. -/
def content (n : Node) : Kind → Content
  | .rectangle => .rectangle n.data.style.shape
  | .circle => .circle n.data.style.shape
  | .text =>
    .text ⟨n.data.text.getD TextBlock.standard.text, n.data.style.text⟩
  | .picture => .picture ⟨n.data.image⟩
  | .line =>
    .line ⟨n.data.start.orElse Segment.standard.start,
      n.data.stop.orElse Segment.standard.stop, n.data.style.line⟩

/-- The component of a node of a known kind. -/
def component? (n : Node) : Option Component :=
  n.kind.map fun kind =>
    { id := n.id
      position := n.position.orElse .origin
      size := ⟨n.width.getD 0, n.height.getD 0⟩
      visible := n.data.visible.getD true
      timestamps := n.data.timestamps
      content := n.content kind }

end Node

end TimedOverlay
