/-
A file system as a value: directories and files with their contents.

An operation that changes something gives back the file system as it is
afterwards. Where a path leads is found by walking it from the root or
from the working directory; every name on the way has to be that of a
directory.

There are no links, neither symbolic nor hard ones: a place is reached by
one list of names and holds what was put there. Nothing is forbidden to
anyone either.
-/
import TimedOverlay.Storage.Fault
import TimedOverlay.Storage.Path

namespace TimedOverlay

/-- The names from the root to a place. -/
abbrev Location := List SystemString

/-- What can be at a place: besides files and directories, a device that
takes whatever is written to it and never has any content. -/
inductive Entry where
  | file (content : List UInt8) (executable : Bool)
  | directory
  | device
deriving DecidableEq

/-- What is at which place, and where paths start. -/
structure FileSystem where
  working : Location
  entries : List (Location × Entry)
deriving DecidableEq

namespace FileSystem

-- ================================================================ places

/-- What is at a place. The root is a directory. -/
def get? (fs : FileSystem) (l : Location) : Option Entry :=
  if l = [] then some .directory else fs.entries.lookup l

/-- The file system with something else at a place. -/
def put (fs : FileSystem) (l : Location) (e : Entry) : FileSystem :=
  { fs with entries := (l, e) :: fs.entries.filter (·.1 ≠ l) }

/-- The file system with nothing at a place. -/
def erase (fs : FileSystem) (l : Location) : FileSystem :=
  { fs with entries := fs.entries.filter (·.1 ≠ l) }

/-- What is put at a place is there. -/
theorem get?_put_self (fs : FileSystem) {l : Location} (h : l ≠ [])
    (e : Entry) : (fs.put l e).get? l = some e := by
  simp [get?, put, h]

/-- Taking one place out changes no other. -/
theorem lookup_filter_ne {l k : Location} (h : l ≠ k)
    (es : List (Location × Entry)) :
    (es.filter (·.1 ≠ k)).lookup l = es.lookup l := by
  induction es with
  | nil => rfl
  | cons p rest ih =>
    obtain ⟨a, e⟩ := p
    by_cases ha : a = k
    · subst ha
      have hb : (l == a) = false := by simpa using h
      simpa [List.lookup_cons, hb] using ih
    · by_cases hl : l = a
      · subst hl
        simp [h]
      · have hb : (l == a) = false := by simpa using hl
        simpa [ha, List.lookup_cons, hb] using ih

/-- Putting something at one place changes no other. -/
theorem get?_put_of_ne (fs : FileSystem) {l k : Location} (h : l ≠ k)
    (e : Entry) : (fs.put k e).get? l = fs.get? l := by
  have hb : (l == k) = false := by simpa using h
  unfold get? put
  rw [List.lookup_cons, hb]
  simp only [lookup_filter_ne h]

/-- Erasing one place changes no other. -/
theorem get?_erase_of_ne (fs : FileSystem) {l k : Location} (h : l ≠ k) :
    (fs.erase k).get? l = fs.get? l := by
  unfold get? erase
  simp only [lookup_filter_ne h]

-- =============================================================== walking

/-- The longest name, in bytes. -/
def nameLimit : Nat := 255

/-- The place that names lead to from a place. -/
def walk (fs : FileSystem) (l : Location) :
    List SystemString → Except SystemFault Location
  | [] => .ok l
  | name :: rest =>
    match fs.get? l with
    | none => .error .notFound
    | some .directory =>
      if name = "" ∨ name = "." then walk fs l rest
      else if name = ".." then walk fs l.dropLast rest
      else if nameLimit < name.size then .error .nameTooLong
      else walk fs (l ++ [name]) rest
    | some _ => .error .notDirectory

/-- The longest path, in bytes. -/
def pathLimit : Nat := 4095

/-- The names of a path. -/
def names (path : SystemString) : List SystemString :=
  (Text.split '/' path.units).map path.part

/-- The names of a path without the slashes at its end. -/
def namesProper (path : SystemString) : List SystemString :=
  ((names path).reverse.dropWhile (· = .text "")).reverse

/-- Where the walk along a path starts. -/
def origin (fs : FileSystem) (path : SystemString) : Location :=
  if Path.isAbsolute path then [] else fs.working

/-- What keeps a path from being walked at all. -/
def refusal? (path : SystemString) : Option SystemFault :=
  if path.hasNul then some .nulInPath
  else if path.isEmpty then some .notFound
  else if pathLimit < path.size then some .nameTooLong
  else none

/-- The place that names lead to from where a path starts, if the path
can be walked. -/
def follow (fs : FileSystem) (path : SystemString)
    (way : List SystemString) :
    Except SystemFault Location :=
  match refusal? path with
  | some fault => .error fault
  | none => fs.walk (fs.origin path) way

/-- The place that a path leads to. -/
def locate (fs : FileSystem) (path : SystemString) :
    Except SystemFault Location :=
  fs.follow path (names path)

/-- What a path leads to. -/
def at? (fs : FileSystem) (path : SystemString) : Option Entry :=
  match fs.locate path with
  | .ok l => fs.get? l
  | .error _ => none

-- ============================================================= questions

/-- Whether a path leads to anything. -/
def holds (fs : FileSystem) (path : SystemString) : Bool := (fs.at? path).isSome

/-- Whether a path leads to a file. -/
def isFile (fs : FileSystem) (path : SystemString) : Bool :=
  match fs.at? path with
  | some (.file ..) => true
  | _ => false

/-- The content of a file. -/
def contents (fs : FileSystem) (path : SystemString) :
    Except SystemFault (List UInt8) := do
  match fs.get? (← fs.locate path) with
  | some (.file content _) => return content
  | some .device => return []
  | some .directory => throw .isDirectory
  | none => throw .notFound

/-- The content of a file of text. -/
def text (fs : FileSystem) (path : SystemString) :
    Except SystemFault String := do
  match Utf8.text? (← fs.contents path) with
  | some s => return s
  | none => throw .notText

-- =============================================================== changes

/-- The place of a file that is created if it is not there. A path that
ends with a slash can only be that of a directory: then the way to it is
walked, and what is there does not matter. -/
def locateFile (fs : FileSystem) (path : SystemString) :
    Except SystemFault Location := do
  if path.units.getLast? = some '/' then
    let _ ← fs.follow path ((namesProper path).dropLast ++ [.text "."])
    throw .isDirectory
  fs.locate path

/-- The file at a path with a new content; a file that was not there is
created. A device stays as it is. -/
def write (fs : FileSystem) (path : SystemString) (content : List UInt8) :
    Except SystemFault FileSystem := do
  let l ← fs.locateFile path
  match fs.get? l with
  | some .directory => throw .isDirectory
  | some .device => return fs
  | some (.file _ executable) => return fs.put l (.file content executable)
  | none => return fs.put l (.file content false)

/-- The file at a path with more content at its end. -/
def append (fs : FileSystem) (path : SystemString) (content : List UInt8) :
    Except SystemFault FileSystem := do
  let old := match fs.contents path with
    | .ok bytes => bytes
    | .error _ => []
  fs.write path (old ++ content)

/-- The file system without what is at a path, unless it is a
directory. -/
def remove (fs : FileSystem) (path : SystemString) : FileSystem :=
  match fs.locate path with
  | .ok l => if fs.get? l = some .directory then fs else fs.erase l
  | .error _ => fs

/-- The directories that names lead through from a place, each created
where it is missing; and what stopped that.

A way is tried as a whole before any part of it is created. So a file on
it is no directory that could be walked through, but once a part has been
created the next name is tried by itself, and a file there exists. -/
def makeWay (fs : FileSystem) (created : Bool) (l : Location) :
    List SystemString → FileSystem × Option SystemFault
  | [] => (fs, none)
  | name :: rest =>
    if name = "" ∨ name = "." then makeWay fs created l rest
    else if name = ".." then makeWay fs created l.dropLast rest
    else if nameLimit < name.size then (fs, some .nameTooLong)
    else
      let next := l ++ [name]
      match fs.get? next with
      | some .directory => makeWay fs created next rest
      | none => makeWay (fs.put next .directory) true next rest
      | some _ =>
        (fs, some (if created ∨ rest = [] then .exists else .notDirectory))

/-- The file system with a directory at a path, and with all on the way
to it; and what stopped that. -/
def makeDirectories (fs : FileSystem) (path : SystemString) :
    FileSystem × Option SystemFault :=
  if path.isEmpty then (fs, none)
  else match refusal? path with
    | some fault => (fs, some fault)
    | none => fs.makeWay false (fs.origin path) (namesProper path)

/-- The file system with the directory that a path lies in. A path that
is a single name asks for none. -/
def makeParent (fs : FileSystem) (path : SystemString) :
    FileSystem × Option (SystemString × SystemFault) :=
  match Path.parent? path with
  | some dir =>
    let (fs, fault) := fs.makeDirectories dir
    (fs, fault.map (dir, ·))
  | none => (fs, none)

end FileSystem

end TimedOverlay
