/-
Job documents in files.
-/
import TimedOverlay.Job.Document
import TimedOverlay.Storage.FileSystem

namespace TimedOverlay

/-- Why there is no document in a file. -/
inductive DocumentError where
  | missing (path : SystemString)
  | unreadable (fault : SystemFault)
  | malformed (cause : Json.Error)
deriving DecidableEq

/-- The lack of a document in words. -/
def DocumentError.message : DocumentError → String
  | .missing path => "File not found: " ++ path.shown
  | .unreadable fault => fault.message
  | .malformed cause => "Job error: Invalid job document: " ++ cause.message

/-- The document that a file holds. A path that leads nowhere, for
whatever reason, is that of a missing file. -/
def Document.load (fs : FileSystem) (path : SystemString) :
    Except DocumentError Document :=
  if !fs.holds path then .error (.missing path)
  else match fs.text path with
    | .error fault => .error (.unreadable fault)
    | .ok text => match Document.ofText text with
      | .error cause => .error (.malformed cause)
      | .ok d => .ok d

end TimedOverlay
