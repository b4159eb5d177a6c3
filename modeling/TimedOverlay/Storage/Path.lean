/-
Paths as strings.

A path is a list of names between slashes. Repeated slashes, a slash at
the end and a name that is a single dot count for nothing, except that a
dot in front of all others is a name like any other. The functions here
only cut and join strings; what a path leads to is a question for a file
system.
-/
import TimedOverlay.Storage.SystemString
import TimedOverlay.Text.Basic

namespace TimedOverlay.Path

/-- Whether a path starts at the root. -/
def isAbsolute (s : SystemString) : Bool := s.units.head? = some '/'

/-- A path, read from its end, without what counts for nothing there. A
slash or dot that is all of it stays. -/
def trimTail : List Char → List Char
  | '/' :: c :: rest => trimTail (c :: rest)
  | '.' :: '/' :: rest => trimTail ('/' :: rest)
  | s => s

/-- The last name of a path, and the path before it; none for the root
and for the empty path. Both are read from their ends. -/
def splitLast? (s : SystemString) : Option (List Char × List Char) :=
  match trimTail s.units.reverse with
  | [] => none
  | ['/'] => none
  | rev => some (rev.takeWhile (· ≠ '/'), trimTail (rev.dropWhile (· ≠ '/')))

/-- The path of the directory that a path lies in: empty for a single
name, none for the root. -/
def parent? (s : SystemString) : Option SystemString :=
  (splitLast? s).map fun (_, before) => s.part before.reverse

/-- The last name of a path, unless it only leads elsewhere. -/
def fileName? (s : SystemString) : Option SystemString :=
  match splitLast? s with
  | none => none
  | some (name, _) =>
    if name = ['.'] ∨ name = ['.', '.'] then none
    else some (s.part name.reverse)

/-- The file name without its last extension. A dot in front of a name
starts no extension. -/
def stem? (s : SystemString) : Option SystemString :=
  (fileName? s).map fun name =>
    let rev := name.units.reverse
    match rev.dropWhile (· ≠ '.') with
    | _ :: c :: before => name.part (c :: before).reverse
    | _ => name

/-- A path taken from a base; an absolute path stands for itself. -/
def join (base s : String) : String :=
  if isAbsolute s || base.isEmpty then s
  else if base.toList.getLast? = some '/' then base ++ s
  else base ++ "/" ++ s

end TimedOverlay.Path
