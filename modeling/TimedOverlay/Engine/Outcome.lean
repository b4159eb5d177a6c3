/-
How the drawing of a video ends.

A video is drawn, or it is not, and then it is said why: the time ran
out, the engine refused, or the engine never came to work. Only the
engine's refusal is final; the others may not happen a second time.
-/
import TimedOverlay.Json.Value
import TimedOverlay.Storage.SystemString

namespace TimedOverlay

open Json (Value)

/-- What keeps an engine from its work. -/
inductive Obstacle where
  | noSource (path : SystemString)
  | noDirectory (path : SystemString) (fault : SystemFault)
  | noStart (engine : String) (fault : SystemFault)
  | noWait (fault : SystemFault)
deriving DecidableEq

/-- An obstacle in words. -/
def Obstacle.message : Obstacle → String
  | .noSource path => "Source video not found: " ++ path.shown
  | .noDirectory path fault =>
    "Failed to create output directory " ++ path.shown ++ ": "
      ++ fault.message
  | .noStart engine fault =>
    "Failed to start " ++ engine ++ ": " ++ fault.message
  | .noWait fault => "Failed to wait on ffmpeg: " ++ fault.message

/-- Why a video was not drawn. -/
inductive Failure where
  /-- The time ran out; it is given in milliseconds. -/
  | timeout (budget : UInt64)
  /-- The engine refused; without a status if a signal ended it. -/
  | diagnostic (status : Option Int) (errors : String)
  /-- The engine never came to work. -/
  | internal (message : String)
deriving DecidableEq

/-- How the drawing of a video ends. -/
inductive Outcome where
  | success (path : SystemString)
  | failure (f : Failure)
deriving DecidableEq

namespace Failure

/-- A failure in words. -/
def reason : Failure → String
  | .timeout _ => "timeout"
  | .diagnostic _ errors => errors
  | .internal message => message

/-- Whether the same attempt may succeed another time. -/
def isRetryable : Failure → Bool
  | .diagnostic .. => false
  | _ => true

/-- A failure by its kind and details. -/
def toValue : Failure → Value
  | .timeout budget =>
    .object [("kind", .string "timeout"), ("budget_ms", .ofNat budget.toNat)]
  | .diagnostic status errors =>
    .object [("kind", .string "diagnostic"),
      ("status", .ofOption (fun n => .number (.integer n)) status),
      ("stderr", .string errors)]
  | .internal message =>
    .object [("kind", .string "internal"), ("message", .string message)]

end Failure

namespace Outcome

/-- The outcome of an obstacle. -/
def obstacle (o : Obstacle) : Outcome := .failure (.internal o.message)

/-- Whether the video was drawn. -/
def isSuccess : Outcome → Bool
  | .success _ => true
  | .failure _ => false

/-- The video that was drawn. -/
def path? : Outcome → Option SystemString
  | .success path => some path
  | .failure _ => none

/-- Why the video was not drawn. -/
def failure? : Outcome → Option Failure
  | .success _ => none
  | .failure f => some f

/-- An outcome by its status and detail. There is none for a video whose
path is no text. -/
def toValue? : Outcome → Option Value
  | .success path => do
    let path ← path.text?
    return .object [("status", .string "success"), ("detail", .string path)]
  | .failure f =>
    some (.object [("status", .string "failure"), ("detail", f.toValue)])

end Outcome

end TimedOverlay
