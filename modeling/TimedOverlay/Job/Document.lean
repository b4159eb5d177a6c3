/-
Job documents: the overlays of one video as an editor hands them over.

A document is accepted if it is an object in which no known name is
repeated, or an array with no more items than there are names; nothing
that its fields hold makes it unreadable. The frame is the size of the
video, the canvas the size the positions were drawn for: where the two
differ, components are scaled from one to the other.
-/
import TimedOverlay.Json.Strict
import TimedOverlay.Job.Node
import TimedOverlay.Component.Scale

namespace TimedOverlay

open Json (Value Field Record)

/-- The size of a video in pixels. -/
structure Frame where
  width : Nat
  height : Nat
deriving DecidableEq

/-- The frame that is assumed when none is known. -/
def Frame.standard : Frame := ⟨1920, 1080⟩

/-- What a document says, as far as it could be read. -/
structure Document where
  nodes : List Node
  videoWidth : Option Binary64
  videoHeight : Option Binary64
  videoDuration : Option Binary64
  canvasWidth : Option Binary64
  canvasHeight : Option Binary64
deriving DecidableEq

namespace Document

-- =============================================================== reading

/-- The names of the fields, in the order of an array. -/
def names : List String :=
  ["nodes", "video_width", "video_height", "video_duration",
    "canvas_width", "canvas_height"]

/-- The nodes of a field: an array, without the items that are none. -/
def nodesOf : Option Value → List Node
  | some (.array items) => items.filterMap Node.ofValue?
  | _ => []

/-- The document with these fields. -/
def ofFields (get : String → Option Value) : Document :=
  { nodes := nodesOf (get "nodes")
    videoWidth := Loose.number? (get "video_width")
    videoHeight := Loose.number? (get "video_height")
    videoDuration := Loose.number? (get "video_duration")
    canvasWidth := Loose.number? (get "canvas_width")
    canvasHeight := Loose.number? (get "canvas_height") }

/-- The fields of a document as values, the last one first. -/
def record : Record (List (String × Value)) where
  name := "JobDocument"
  start := []
  fields := names.map fun name =>
    .of name .defaulted (fun m o => o.value m.depth) fun vs v => (name, v) :: vs

/-- The document that a text holds. -/
def ofText (s : String) : Except Json.Error Document :=
  (fun vs => ofFields fun name => List.lookup name vs) <$> record.ofText s

-- ================================================================= frame

/-- A length in whole pixels, if it is at least 1. -/
def pixels? (x : Option Binary64) : Option Nat := do
  let x ← x.filter fun x => Binary64.le 1 x
  let n ← x.round?
  return Nat.min n.toNat (2 ^ 32 - 1)

variable (d : Document)

/-- The frame of a document; what it does not say is taken from the
standard one. -/
def frame : Frame :=
  ⟨(pixels? d.videoWidth).getD Frame.standard.width,
    (pixels? d.videoHeight).getD Frame.standard.height⟩

/-- Whether a document gives its frame in full. -/
def hasFrame : Bool :=
  (pixels? d.videoWidth).isSome && (pixels? d.videoHeight).isSome

/-- The duration of the video in seconds; zero if it is not known. -/
def duration : Binary64 := (d.videoDuration.getD 0).orZero

-- =============================================================== scaling

/-- Lengths that differ by no more than this are equal. -/
def tolerance : Binary64 :=
  .ofUnits false Magnitude.unitsPerOne (2 ^ 52)

/-- The factor from a canvas to a frame along one axis. -/
def factor (canvas : Option Binary64) (frame : Nat) : Binary64 :=
  match canvas with
  | some c =>
    let f := Binary64.ofNat frame
    if Binary64.lt 0 c && tolerance.lt (c - f).abs then f / c else 1
  | none => 1

/-- The factors of both axes. -/
def canvasScale : Binary64 × Binary64 :=
  (factor d.canvasWidth d.frame.width, factor d.canvasHeight d.frame.height)

/-- The components of a document in order, in pixels of its frame. -/
def components : List Component :=
  let (sx, sy) := d.canvasScale
  (d.nodes.filterMap Node.component?).map fun c =>
    if sx.same 1 && sy.same 1 then c else c.scale sx sy

end Document

end TimedOverlay
