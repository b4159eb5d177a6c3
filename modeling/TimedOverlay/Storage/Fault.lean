/-
What a file system or the start of a program can answer instead of doing
what was asked.
-/
namespace TimedOverlay

/-- Why an operation of the system failed. -/
inductive SystemFault where
  | notFound
  | permissionDenied
  | exists
  | notDirectory
  | isDirectory
  | nameTooLong
  | badExecutable
  | argumentTooLong
  | tooManyLinks
  | notSupported
  | nulInPath
  | nulInArgument
  | notText
deriving DecidableEq

namespace SystemFault

/-- A fault that the system reports by number. -/
def numbered (text : String) (n : Nat) : String :=
  text ++ " (os error " ++ toString n ++ ")"

/-- A fault in words. -/
def message : SystemFault → String
  | .notFound => numbered "No such file or directory" 2
  | .argumentTooLong => numbered "Argument list too long" 7
  | .badExecutable => numbered "Exec format error" 8
  | .permissionDenied => numbered "Permission denied" 13
  | .exists => numbered "File exists" 17
  | .notDirectory => numbered "Not a directory" 20
  | .isDirectory => numbered "Is a directory" 21
  | .nameTooLong => numbered "File name too long" 36
  | .tooManyLinks => numbered "Too many levels of symbolic links" 40
  | .notSupported => numbered "Operation not supported" 95
  | .nulInPath => "file name contained an unexpected NUL byte"
  | .nulInArgument => "nul byte found in provided data"
  | .notText => "stream did not contain valid UTF-8"

end SystemFault

/-- Whether a text holds the character that no path or argument can. -/
def hasNul (s : String) : Bool := s.toList.any (·.toNat = 0)

end TimedOverlay
