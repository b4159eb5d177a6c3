/-
The machine that programs are run on.

A host is told only by what it answers: the file system it holds when a
run begins is handed in, and running a program gives its whole course,
with the files as it leaves them. Times are nanoseconds; those of a
course count from its start.
-/
import TimedOverlay.Storage.FileSystem

namespace TimedOverlay

/-- How the wait for a program ends: with its status, which has no code
if a signal ended it, or with the wait itself failing. -/
inductive Ending where
  | exited (code : Option Int)
  | lost (fault : SystemFault)
deriving DecidableEq

/-- The course of one run of a program. -/
structure Course where
  /-- When the program ends, if it ever does, and how. -/
  ending : Option (Nat × Ending)
  /-- When the last holder of its streams closes them, if ever. -/
  closed : Option Nat
  output : List UInt8
  errors : List UInt8
  /-- The files as they are so long after the start. -/
  files : Nat → FileSystem

namespace Course

variable (c : Course)

/-- When a program that ends by itself and with success does so. -/
def success? : Option Nat :=
  match c.ending with
  | some (t, .exited (some 0)) => some t
  | _ => none

/-- The files as the program leaves them. One that never ends leaves
none behind that could be looked at; those of its start stand for
them. -/
def left : FileSystem :=
  match c.ending, c.closed with
  | some (t, _), some t' => c.files (max t t')
  | some (t, _), none => c.files t
  | none, _ => c.files 0

end Course

/-- A machine: its clock, its date, and what its programs do. -/
structure Host where
  /-- What the clock shows when a run is started. -/
  clock : Nat
  /-- The time that has passed since the year 1970 began. -/
  date : Nat
  /-- The course of a program with some arguments, or why it cannot be
  started. -/
  course : SystemString → List SystemString → FileSystem →
    Except SystemFault Course

namespace Host

/-- A program is started with its arguments, none of which can hold the
character NUL. -/
def start (h : Host) (program : SystemString)
    (arguments : List SystemString) (fs : FileSystem) :
    Except SystemFault Course :=
  if (program :: arguments).any (·.hasNul) then .error .nulInArgument
  else h.course program arguments fs

/-- Whether a program runs when it is asked for its version, and the
files afterwards. -/
def isAvailable (h : Host) (program : SystemString) (fs : FileSystem) :
    Bool × FileSystem :=
  match h.start program ["-version"] fs with
  | .ok c => (c.success?.isSome, c.left)
  | .error _ => (false, fs)

end Host

end TimedOverlay
