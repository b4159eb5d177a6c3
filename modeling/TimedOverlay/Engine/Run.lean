/-
Running the engine under a time budget.

The deadline is set before the engine is started and holds for two
things: the engine has to end, and its error stream has to be closed by
everyone who holds it. Missing the deadline in either is a timeout, and
what the engine had put out by then is removed. In every other case the
output is left as it is.
-/
import TimedOverlay.Engine.Command
import TimedOverlay.Engine.Outcome
import TimedOverlay.Host

namespace TimedOverlay

/-- The seconds that a clock can count. -/
def clockLimit : Nat := 2 ^ 63

/-- A deadline that is beyond what a clock can show ends the program. -/
inductive Abort where
  | deadlineBeyondClock
deriving DecidableEq

/-- One attempt at a video, from its first step until there is a
result. -/
structure Run where
  result : Except Abort Outcome
  /-- The arguments with which the engine was to be started, if it came
  to that. -/
  attempt : Option (List String)
  /-- The nanoseconds that it took. -/
  elapsed : Nat
  /-- The files afterwards. -/
  files : FileSystem

namespace Run

/-- An attempt that failed before the engine was to be started. -/
def unstarted (o : Obstacle) (fs : FileSystem) : Run :=
  ⟨.ok (.obstacle o), none, 0, fs⟩

/-- The most milliseconds that a report can tell. -/
def longestReported : Nat := 2 ^ 64 - 1

/-- The milliseconds of a budget as a report tells them. -/
def reported (budget : Nat) : UInt64 :=
  .ofNat (min (budget / 10 ^ 6) longestReported)

/-- Whether an event happens within the budget, and when. -/
def inTime? (budget : Nat) (t : Option Nat) : Option Nat :=
  t.filter (· ≤ budget)

/-- What becomes of an engine that has been started: the outcome, the
time it takes and the files afterwards. -/
def settle (budget : Nat) (output : SystemString) (c : Course) :
    Outcome × Nat × FileSystem :=
  let timeout :=
    (.failure (.timeout (reported budget)), budget,
      (c.files budget).remove output)
  match c.ending with
  | none => timeout
  | some (t, ending) =>
    if budget < t then timeout
    else match ending with
      | .lost fault => (.obstacle (.noWait fault), t, c.files t)
      | .exited status => match inTime? budget c.closed with
        | none => timeout
        | some t' =>
          let outcome :=
            if status = some 0 then .success output
            else .failure (.diagnostic status (Utf8.lossy c.errors))
          (outcome, max t t', c.files (max t t'))

end Run

namespace Program

/-- Drawing a program over a source, into `output`. -/
def render (h : Host) (o : EngineOptions) (source : SystemString)
    (p : Program) (output : SystemString) (fs : FileSystem) : Run :=
  match fs.makeParent output with
  | (fs, some (dir, fault)) => .unstarted (.noDirectory dir fault) fs
  | (fs, none) =>
    if clockLimit ≤ (h.clock + o.budget) / 10 ^ 9 then
      ⟨.error .deadlineBeyondClock, none, 0, fs⟩
    else
      let arguments := o.arguments source p output
      match h.start o.engine (arguments.map .text) fs with
      | .error fault =>
        ⟨.ok (.obstacle (.noStart o.engine fault)), some arguments, 0, fs⟩
      | .ok c =>
        let (outcome, elapsed, fs) := Run.settle o.budget output c
        ⟨.ok outcome, some arguments, elapsed, fs⟩

end Program

-- =============================================================== exports

/-- Components that are to be drawn over a video. -/
structure Export where
  source : SystemString
  output : SystemString
  components : List Component
  duration : Binary64
deriving DecidableEq

/-- The program of an export, drawn over its source. A source that is no
file is found out before anything is done. -/
def Export.render (e : Export) (h : Host) (o : EngineOptions)
    (fs : FileSystem) : Run :=
  if !fs.isFile e.source then .unstarted (.noSource e.source) fs
  else
    (Program.compile e.duration e.components).render h o e.source e.output fs

end TimedOverlay
