/-
The command line of the engine.

Audio is copied as it is. Video is copied, too, unless something is drawn
on it; then the filter graph is handed over and the video is encoded
anew. Paths are handed over as they are shown.
-/
import TimedOverlay.Program.Basic
import TimedOverlay.Settings.Basic

namespace TimedOverlay

/-- What an engine is told besides what to draw, and how long it may
take, in nanoseconds. -/
structure EngineOptions where
  engine : String
  budget : Nat
  codec : String
  preset : String
  rateFactor : UInt32
  overwrite : Bool
deriving DecidableEq

namespace EngineOptions

/-- The nanoseconds of some seconds. -/
def ofSeconds (n : UInt64) : Nat := 10 ^ 9 * n.toNat

/-- The options that settings ask for. -/
def ofSettings (s : EngineSettings) : EngineOptions where
  engine := s.engine
  budget := ofSeconds s.budget
  codec := s.codec
  preset := s.preset
  rateFactor := s.rateFactor
  overwrite := s.overwrite

/-- The arguments that say what becomes of the streams. -/
def streamArguments (o : EngineOptions) (p : Program) : List String :=
  match p.graph? with
  | none => ["-c", "copy"]
  | some graph =>
    ["-filter_complex", graph, "-c:v", o.codec, "-preset", o.preset,
      "-crf", toString o.rateFactor.toNat, "-c:a", "copy"]

/-- The arguments of the engine, without its name. -/
def arguments (o : EngineOptions) (source : SystemString) (p : Program)
    (output : SystemString) : List String :=
  (if o.overwrite then ["-y"] else [])
    ++ ["-hide_banner", "-loglevel", "error", "-nostdin", "-i", source.shown]
    ++ o.streamArguments p ++ [output.shown]

end EngineOptions

end TimedOverlay
