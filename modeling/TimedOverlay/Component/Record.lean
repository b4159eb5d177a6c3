/-
Components as JSON records, written and read back strictly.

Every part of a component is a member of its own, in a fixed order; an
optional part that is absent is written as null, and so is a number that
is not finite, for which JSON has no form. The kind of a component is
written beside what it carries, as the member `variant`, so everything
else in that record has to be read as values before its form is known.

`Component.reader` reads what `Component.toValue` writes. It also takes
a record that is written as an array of its fields.
-/
import TimedOverlay.Json.Strict
import TimedOverlay.Component.Basic

namespace TimedOverlay

open Json (Value Reader Field Record Outline Mode Error Strict.real)

-- =============================================================== writing

/-- A double in JSON; null if it is not finite. -/
def Binary64.toValue (x : Binary64) : Value :=
  if x.isFinite then .number (.real x) else .null

/-- A point by its coordinates. -/
def Point.toValue (p : Point) : Value :=
  .object [("x", p.x.toValue), ("y", p.y.toValue)]

/-- A size by its width and height. -/
def Size.toValue (s : Size) : Value :=
  .object [("width", s.width.toValue), ("height", s.height.toValue)]

/-- A color by its channels. -/
def Color.toValue (c : Color) : Value :=
  .object [("r", .ofNat c.red.toNat), ("g", .ofNat c.green.toNat),
    ("b", .ofNat c.blue.toNat)]

/-- A paint: the name of the one without color, or the color as a single
member. -/
def Paint.toValue : Paint → Value
  | .solid c => .object [("solid", c.toValue)]
  | .transparent => .string "transparent"

/-- An alignment by its name. -/
def Alignment.toValue (a : Alignment) : Value := .string a.name

/-- A shadow by its parts. -/
def Shadow.toValue (s : Shadow) : Value :=
  .object [("color", s.color.toValue), ("offset_x", s.offsetX.toValue),
    ("offset_y", s.offsetY.toValue), ("blur", s.blur.toValue),
    ("opacity", s.opacity.toValue)]

/-- The members of a shape. -/
def ShapeStyle.members (s : ShapeStyle) : List (String × Value) :=
  [("fill", s.fill.toValue), ("border_color", s.borderColor.toValue),
    ("border_width", s.borderWidth.toValue), ("opacity", s.opacity.toValue),
    ("shadow", .ofOption Shadow.toValue s.shadow)]

/-- A shape by its parts. -/
def ShapeStyle.toValue (s : ShapeStyle) : Value := .object s.members

/-- The style of a text by its parts. -/
def TextStyle.toValue (s : TextStyle) : Value :=
  .object [("font_size", s.fontSize.toValue),
    ("font_color", s.fontColor.toValue), ("align", s.alignment.toValue),
    ("background", .ofOption ShapeStyle.toValue s.background),
    ("shadow", .ofOption Shadow.toValue s.shadow)]

/-- The style of a line by its parts. -/
def LineStyle.toValue (s : LineStyle) : Value :=
  .object [("color", s.color.toValue), ("width", s.width.toValue)]

/-- The members that a content is written as, beside its name. -/
def Content.members : Content → List (String × Value)
  | .rectangle style => style.members
  | .circle style => style.members
  | .text block =>
    [("text", .string block.text), ("style", block.style.toValue)]
  | .picture p => [("image", .ofOption .string p.image)]
  | .line s =>
    [("start", s.start.toValue), ("end", s.stop.toValue),
      ("style", s.style.toValue)]

/-- A content: its name, then what it carries, in one record. -/
def Content.toValue (c : Content) : Value :=
  .object (("variant", .string c.kind.name) :: c.members)

/-- A component by its parts. -/
def Component.toValue (c : Component) : Value :=
  .object [("id", .string c.id), ("position", c.position.toValue),
    ("size", c.size.toValue), ("visible", .bool c.visible),
    ("timestamps", .array (c.timestamps.map Binary64.toValue)),
    ("kind", c.content.toValue)]

-- =============================================================== reading

/-- The name of a variant: a string, one of the given names. -/
def variantName (names : List String) (expected : String) : Reader String :=
  fun m o => do
    let name ← Json.Strict.text expected m o
    if names.contains name then return name
    else throw (.unknownVariant name names)

/-- A part without content. -/
def unitReader : Reader Unit := fun _ o =>
  match o with
  | .null => .ok ()
  | .object [] _ => .ok ()
  | o => .error (Json.Strict.mismatch "unit" o)

/-- A point needs both coordinates. -/
def Point.record : Record Point where
  name := "Point"
  start := .origin
  fields := [
    .of "x" .required Strict.real fun p x => { p with x },
    .of "y" .required Strict.real fun p y => { p with y }]

/-- A size needs both lengths. -/
def Size.record : Record Size where
  name := "Size"
  start := ⟨0, 0⟩
  fields := [
    .of "width" .required Strict.real fun s width => { s with width },
    .of "height" .required Strict.real fun s height => { s with height }]

/-- A channel of a color. -/
def channelReader : Reader UInt8 := fun m o =>
  UInt8.ofNat <$> Json.Strict.natural 8 m o

/-- A color needs all three channels. -/
def Color.record : Record Color where
  name := "Color"
  start := .black
  fields := [
    .of "r" .required channelReader fun c red => { c with red },
    .of "g" .required channelReader fun c green => { c with green },
    .of "b" .required channelReader fun c blue => { c with blue }]

/-- A paint: the name of one without color, or an object whose single
member is named for the paint. -/
def Paint.reader : Reader Paint := fun m o =>
  let names := ["solid", "transparent"]
  match o with
  | .string s => do
    let name ← variantName names "variant identifier" m (.string s)
    if name = "solid" then throw (.wrongType .unitVariant "newtype variant")
    else return .transparent
  | .object [(key, o)] _ => do
    let name ← variantName names "variant identifier" m (.string key)
    if name = "solid" then .solid <$> Color.record.reader m o
    else (fun _ => .transparent) <$> unitReader m o
  | .object _ _ => .error (.wrongValue .map "map with a single key")
  | o => .error (Json.Strict.mismatch "string or map" o)

/-- An alignment: its name, alone or as the single member of an
object. -/
def Alignment.reader : Reader Alignment := fun m o =>
  let names := ["left", "center", "right"]
  match o with
  | .string s =>
    Alignment.parse <$> variantName names "variant identifier" m (.string s)
  | .object [(key, o)] _ => do
    let name ← variantName names "variant identifier" m (.string key)
    unitReader m o
    return Alignment.parse name
  | .object _ _ => .error (.wrongValue .map "map with a single key")
  | o => .error (Json.Strict.mismatch "string or map" o)

/-- A shadow needs all of its parts. -/
def Shadow.record : Record Shadow where
  name := "Shadow"
  start := .standard
  fields := [
    .of "color" .required Color.record.reader fun s color => { s with color },
    .of "offset_x" .required Strict.real fun s offsetX => { s with offsetX },
    .of "offset_y" .required Strict.real fun s offsetY => { s with offsetY },
    .of "blur" .required Strict.real fun s blur => { s with blur },
    .of "opacity" .required Strict.real fun s opacity => { s with opacity }]

/-- A shadow or null. -/
def Shadow.optional : Reader (Option Shadow) :=
  Json.Strict.optional Shadow.record.reader

/-- A shape needs all of its parts but the shadow. -/
def ShapeStyle.record : Record ShapeStyle where
  name := "ShapeStyle"
  start := { ShapeStyle.standard with shadow := none }
  fields := [
    .of "fill" .required Paint.reader fun s fill => { s with fill },
    .of "border_color" .required Color.record.reader
      fun s borderColor => { s with borderColor },
    .of "border_width" .required Strict.real
      fun s borderWidth => { s with borderWidth },
    .of "opacity" .required Strict.real fun s opacity => { s with opacity },
    .of "shadow" .nullable Shadow.optional fun s shadow => { s with shadow }]

/-- The style of a text may do without background and shadow. -/
def TextStyle.record : Record TextStyle where
  name := "TextStyle"
  start := { TextStyle.standard with background := none, shadow := none }
  fields := [
    .of "font_size" .required Strict.real fun s fontSize => { s with fontSize },
    .of "font_color" .required Color.record.reader
      fun s fontColor => { s with fontColor },
    .of "align" .required Alignment.reader
      fun s alignment => { s with alignment },
    .of "background" .nullable (Json.Strict.optional ShapeStyle.record.reader)
      fun s background => { s with background },
    .of "shadow" .nullable Shadow.optional fun s shadow => { s with shadow }]

/-- A text needs its style. -/
def TextBlock.record : Record TextBlock where
  name := "TextOverlay"
  start := .standard
  fields := [
    .of "text" .required Json.Strict.string fun b text => { b with text },
    .of "style" .required TextStyle.record.reader
      fun b style => { b with style }]

/-- A picture may do without its image. -/
def Picture.record : Record Picture where
  name := "PictureOverlay"
  start := ⟨none⟩
  fields := [
    .of "image" .nullable (Json.Strict.optional Json.Strict.string)
      fun _ image => ⟨image⟩]

/-- The style of a line needs both parts. -/
def LineStyle.record : Record LineStyle where
  name := "LineStyle"
  start := .standard
  fields := [
    .of "color" .required Color.record.reader fun s color => { s with color },
    .of "width" .required Strict.real fun s width => { s with width }]

/-- A line needs its ends and its style. -/
def Segment.record : Record Segment where
  name := "LineOverlay"
  start := .standard
  fields := [
    .of "start" .required Point.record.reader fun s start => { s with start },
    .of "end" .required Point.record.reader fun s stop => { s with stop },
    .of "style" .required LineStyle.record.reader
      fun s style => { s with style }]

namespace Content

/-- What a content of the given kind carries. Other members of the
record are passed over, its name among them. -/
def payload (kind : Kind) : Reader Content := fun m o =>
  match kind with
  | .rectangle => .rectangle <$> ShapeStyle.record.reader m o
  | .circle => .circle <$> ShapeStyle.record.reader m o
  | .text => .text <$> TextBlock.record.reader m o
  | .picture => .picture <$> Picture.record.reader m o
  | .line => .line <$> Segment.record.reader m o

/-- The kind that a content names. -/
def kindReader : Reader Kind := fun m o => do
  let name ← Json.Strict.text "variant identifier" m o
  match Kind.ofName? name with
  | some kind => return kind
  | none => throw (.unknownVariant name (Kind.all.map Kind.name))

/-- The kind of a content among the members of its record. All others
are read as values on the way. -/
def findKind (m : Mode) (fault : Option Json.Fault) :
    Option Kind → List (Json.Spelling × Outline) → Except Error Kind
  | found, [] => do
    Json.closing fault
    match found with
    | some kind => return kind
    | none => throw (.missingField "variant")
  | found, (key, o) :: rest => do
    let member ← key.text
    if member = "variant" then
      if found.isSome then throw (.duplicateField "variant")
      let kind ← kindReader m o
      findKind m fault (some kind) rest
    else
      let _ ← o.value m.depth
      findKind m fault found rest

/-- A content: its kind and, beside or behind it, what it carries. -/
def reader : Reader Content := fun m o =>
  match o with
  | .object members fault => do
    let kind ← findKind (← m.enter) fault none members
    payload kind ⟨0, true⟩ (.object members none)
  | .array [] fault => do
    let _ ← m.enter
    Json.closing fault
    throw (.missingField "variant")
  | .array (o :: rest) fault => do
    let m ← m.enter
    let kind ← kindReader m o
    let _ ← Outline.values m.depth rest
    Json.closing fault
    payload kind ⟨0, true⟩ (.array rest none)
  | o => .error (Json.Strict.mismatch "internally tagged enum OverlayKind" o)

end Content

/-- A component needs all of its parts. -/
def Component.record : Record Component where
  name := "OverlayComponent"
  start := .ofContent "" (.picture ⟨none⟩)
  fields := [
    .of "id" .required Json.Strict.string fun c id => { c with id },
    .of "position" .required Point.record.reader
      fun c position => { c with position },
    .of "size" .required Size.record.reader fun c size => { c with size },
    .of "visible" .required Json.Strict.boolean
      fun c visible => { c with visible },
    .of "timestamps" .required (Json.Strict.list Strict.real)
      fun c timestamps => { c with timestamps },
    .of "kind" .required Content.reader fun c content => { c with content }]

end TimedOverlay
