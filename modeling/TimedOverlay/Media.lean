/-
What is known of a video: its frame and its duration.

A prober is asked for the first video stream and answers in JSON. A
video has a frame or nothing is known of it; a duration that is missing
or makes no sense is zero.
-/
import TimedOverlay.Json.Strict
import TimedOverlay.Host
import TimedOverlay.Job.Document

namespace TimedOverlay

open Json (Record)

/-- The frame of a video and how long it lasts. -/
structure Media where
  frame : Frame
  duration : Binary64
deriving DecidableEq

namespace Media

-- =============================================================== answers

/-- The size of a stream as a prober reports it. -/
structure Stream where
  width : Option Nat
  height : Option Nat

/-- The answer of a prober. -/
structure Answer where
  streams : List Stream
  duration : Option String

/-- A stream may do without either length. -/
def Stream.record : Record Stream where
  name := "ProbeStream"
  start := ⟨none, none⟩
  fields := [
    .of "width" .nullable (Json.Strict.optional (Json.Strict.natural 32))
      fun s width => { s with width },
    .of "height" .nullable (Json.Strict.optional (Json.Strict.natural 32))
      fun s height => { s with height }]

/-- The duration among the properties of a container. -/
def containerRecord : Record (Option String) where
  name := "ProbeFormat"
  start := none
  fields := [
    .of "duration" .nullable (Json.Strict.optional Json.Strict.string)
      fun _ duration => duration]

/-- An answer may do without all of its parts. -/
def Answer.record : Record Answer where
  name := "ProbeOutput"
  start := ⟨[], none⟩
  fields := [
    .of "streams" .defaulted (Json.Strict.list Stream.record.reader)
      fun a streams => { a with streams },
    .of "format" .nullable (Json.Strict.optional containerRecord.reader)
      fun a format => { a with duration := format.join }]

/-- The duration of a text: a finite number that is not negative, or
zero. -/
def durationOf (text : Option String) : Binary64 :=
  let x := text.bind fun s => Binary64.numeral? (Text.trim s.toList)
  (x.filter fun x => x.isFinite && Binary64.le 0 x).getD 0

/-- What an answer says of the first stream. -/
def ofAnswer? (a : Answer) : Option Media := do
  let stream ← a.streams.head?
  let width ← stream.width.filter (0 < ·)
  let height ← stream.height.filter (0 < ·)
  return ⟨⟨width, height⟩, durationOf a.duration⟩

/-- What the text of an answer says. -/
def ofText? (s : String) : Option Media :=
  match Answer.record.ofText s with
  | .ok a => ofAnswer? a
  | .error _ => none

-- =============================================================== probing

/-- The arguments of a prober. -/
def arguments (video : SystemString) : List SystemString :=
  ["-v", "error", "-select_streams", "v:0", "-show_entries",
    "stream=width,height:format=duration", "-of", "json", video]

/-- What a prober finds out about a video, if it succeeds; and the files
afterwards. -/
def probe (h : Host) (prober video : SystemString) (fs : FileSystem) :
    Option Media × FileSystem :=
  match h.start prober (arguments video) fs with
  | .error _ => (none, fs)
  | .ok c =>
    let answer := if c.success?.isSome then Utf8.text? c.output else none
    (answer.bind ofText?, c.left)

end Media

end TimedOverlay
