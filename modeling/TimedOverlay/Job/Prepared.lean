/-
Jobs that are ready to be drawn.

What a document does not say of its video can be asked of the video
itself: the frame, if the document does not give it in full, and the
duration, if the document's is not positive. Components are in pixels of
the frame that the document speaks of.
-/
import TimedOverlay.Job.File
import TimedOverlay.Media
import TimedOverlay.Settings.Basic

namespace TimedOverlay

/-- All that is drawn over one video, and how large and long that is. -/
structure Job where
  id : String
  components : List Component
  frame : Frame
  duration : Binary64
deriving DecidableEq

namespace Job

/-- The name of the job in a file. -/
def idOf (path : SystemString) : String :=
  ((Path.stem? path).map (·.shown)).getD "job"

/-- The job of a document for a video of which something may be known. -/
def ofDocument (id : String) (d : Document) (known : Option Media) : Job where
  id := id
  components := d.components
  frame := match known with
    | some m => if d.hasFrame then d.frame else m.frame
    | none => d.frame
  duration := match known with
    | some m => if d.duration.le 0 then m.duration else d.duration
    | none => d.duration

/-- The job in a file; `video` is asked for what is missing, if there is
one to ask. Gives the files afterwards, too. -/
def load (h : Host) (s : EngineSettings) (path : SystemString)
    (video : Option SystemString) (fs : FileSystem) :
    Except DocumentError Job × FileSystem :=
  match Document.load fs path with
  | .error e => (.error e, fs)
  | .ok d => match video with
    | none => (.ok (ofDocument (idOf path) d none), fs)
    | some video =>
      let (known, fs) := Media.probe h s.prober video fs
      (.ok (ofDocument (idOf path) d known), fs)

end Job

end TimedOverlay
