/-
Reports: what became of one attempt at a job, for programs to read.

A report names the job, the source and the video, and names are written
down as text. So there is none where one of them is no text.
-/
import TimedOverlay.Binary64.Arithmetic
import TimedOverlay.Calendar
import TimedOverlay.Component.Record
import TimedOverlay.Engine.Outcome
import TimedOverlay.Json.Layout

namespace TimedOverlay.Console

/-- What became of one attempt. -/
structure Report where
  job : SystemString
  source : SystemString
  outcome : Outcome
  /-- When it began, in nanoseconds since the year 1970 began. -/
  started : Nat
  /-- The nanoseconds that it took. -/
  elapsed : Nat
deriving DecidableEq

/-- Nanoseconds as a number of seconds. -/
def secondsOf (nanoseconds : Nat) : Binary64 :=
  .ofNat (nanoseconds / 10 ^ 9)
    + .ofNat (nanoseconds % 10 ^ 9) / .ofNat (10 ^ 9)

namespace Report

/-- A report as it is written, if it can be. The reason of a failure
stands beside its details. -/
def toValue? (r : Report) : Option Json.Value := do
  let job ← r.job.text?
  let source ← r.source.text?
  let outcome ← r.outcome.toValue?
  return .object [("job", .string job), ("source", .string source),
    ("outcome", outcome),
    ("reason", .ofOption (fun f => .string f.reason) r.outcome.failure?),
    ("started_at", .string (Calendar.text r.started)),
    ("finished_at", .string (Calendar.text (r.started + r.elapsed))),
    ("elapsed_secs", (secondsOf r.elapsed).toValue)]

/-- The bytes of a report, if it can be written. -/
def bytes? (r : Report) : Option (List UInt8) :=
  r.toValue?.map fun v => Utf8.encode v.text

end Report

end TimedOverlay.Console
