/-
Visibility windows.

When a component is shown is written as one flat list of times: show,
hide, show, hide. Two neighbouring entries are the ends of a window; a
show without a hide lasts to the end of the video. The times are taken
as they are: nothing is sorted, merged or held in range, and a window
that ends before it starts stays one.
-/
import TimedOverlay.Binary64.Arithmetic

namespace TimedOverlay

/-- A span of time in seconds from the start of the video, both ends
included. -/
structure Window where
  start : Binary64
  stop : Binary64
deriving DecidableEq

namespace Window

/-- The length of a window; negative if it ends before it starts. -/
def length (w : Window) : Binary64 := w.stop - w.start

/-- The windows of a list of times, in a video that lasts `duration`. -/
def resolve (duration : Binary64) : List Binary64 → List Window
  | [] => []
  | [start] => [⟨start, duration⟩]
  | start :: stop :: rest => ⟨start, stop⟩ :: resolve duration rest

/-- The ends of some windows, as one flat list. -/
def ends (ws : List Window) : List Binary64 :=
  ws.flatMap fun w => [w.start, w.stop]

end Window

end TimedOverlay
