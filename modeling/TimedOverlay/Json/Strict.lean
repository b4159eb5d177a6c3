/-
Strict readers.

A strict reader asks for one form and refuses every other; what it
reports is the first thing wrong in the order of the text. Readers work
on outlines, so that a wrong type is reported before a bracket that is
missing behind it.

A record may be written as an object, with unknown members passed over,
or as an array of its fields in order. How a field may be left out is its
`Presence`. The same readers serve a part of the text that was read as a
whole before its form was known (`Mode.buffered`); there nothing is left
that could be broken, and only the report of an array that is too long
differs.
-/
import TimedOverlay.Json.Scan

namespace TimedOverlay.Json

-- =============================================================== readers

/-- How an outline is being read: the nesting that is still allowed, and
whether the part is known to be a value already. -/
structure Mode where
  depth : Nat
  buffered : Bool

/-- A strict reader. -/
abbrev Reader (α : Type) := Mode → Outline → Except Error α

namespace Mode

/-- Reading a whole text. -/
def start : Mode := ⟨depthLimit, false⟩

/-- Going into an array or object. -/
def enter (m : Mode) : Except Error Mode :=
  if m.buffered then .ok m
  else if m.depth = 0 then .error .tooDeep
  else .ok ⟨m.depth - 1, false⟩

end Mode

namespace Strict

/-- The report of an outline that is not what was expected; what is
wrong with the outline itself comes first. -/
def mismatch (expected : String) : Outline → Error
  | .null => .wrongType .null expected
  | .bool b => .wrongType (.boolean b) expected
  | .number (some n) => .wrongType (.number n) expected
  | .number none => .numberOutOfRange
  | .string s => match s.text with
    | .ok t => .wrongType (.string t) expected
    | .error e => e
  | .array _ _ => .wrongType .sequence expected
  | .object _ _ => .wrongType .map expected
  | .broken f => f.whenRead

-- ------------------------------------------------------------- scalars

/-- A truth value. -/
def boolean : Reader Bool := fun _ o =>
  match o with
  | .bool b => .ok b
  | o => .error (mismatch "a boolean" o)

/-- A string, called `expected` in reports. -/
def text (expected : String) : Reader String := fun _ o =>
  match o with
  | .string s => s.text
  | o => .error (mismatch expected o)

/-- A string. -/
def string : Reader String := text "a string"

/-- A string that names a file. -/
def path : Reader String := text "path string"

/-- A number as a double. -/
def real : Reader Binary64 := fun _ o =>
  match o with
  | .number n => Number.toBinary64 <$> inRange n
  | o => .error (mismatch "f64" o)

/-- A whole number below `2 ^ bits`. -/
def natural (bits : Nat) : Reader Nat := fun _ o =>
  let expected := "u" ++ toString bits
  match o with
  | .number (some (.integer n)) =>
    if 0 ≤ n ∧ n < 2 ^ bits then .ok n.toNat
    else .error (.wrongValue (.number (.integer n)) expected)
  | o => .error (mismatch expected o)

/-- A value that may be null. -/
def optional (read : Reader α) : Reader (Option α) := fun m o =>
  match o with
  | .null => .ok none
  | o => some <$> read m o

-- --------------------------------------------------------------- lists

/-- The items of a list, in order. -/
def items (read : Reader α) (m : Mode) : List Outline → Except Error (List α)
  | [] => .ok []
  | o :: rest => do
    let a ← read m o
    let as ← items read m rest
    return a :: as

/-- A list, all of its items read alike. -/
def list (read : Reader α) : Reader (List α) := fun m o =>
  match o with
  | .array os fault => do
    let as ← items read (← m.enter) os
    closing fault
    return as
  | o => .error (mismatch "a sequence" o)

end Strict

-- =============================================================== records

/-- Whether a field may be left out: never; out of an object only; or
anywhere. -/
inductive Presence where
  | required
  | nullable
  | defaulted
deriving DecidableEq

/-- A field of a record: how its value is read into the record. -/
structure Field (α : Type) where
  name : String
  presence : Presence
  read : Mode → Outline → α → Except Error α

/-- A record: what it is called, the values of fields that are left out,
and its fields in order. -/
structure Record (α : Type) where
  name : String
  start : α
  fields : List (Field α)

/-- A field whose value is put into the record by `set`. -/
def Field.of {α β : Type} (name : String) (presence : Presence)
    (read : Reader β) (set : α → β → α) : Field α :=
  ⟨name, presence, fun m o a => set a <$> read m o⟩

namespace Record

variable {α : Type}

/-- A record as a report names it. -/
def expected (r : Record α) : String := "struct " ++ r.name

/-- The record with the number of its fields, as a report names it. -/
def withCount (r : Record α) : String :=
  let n := r.fields.length
  r.expected ++ " with " ++ toString n
    ++ (if n = 1 then " element" else " elements")

/-- The members of an object, in order; `seen` holds the fields that
have been read. -/
def readMembers (r : Record α) (m : Mode) (fault : Option Fault)
    (seen : List String) (a : α) :
    List (Spelling × Outline) → Except Error α
  | [] => do
    closing fault
    match r.fields.find? fun f => f.presence = .required && !seen.contains f.name
    with
    | some f => throw (.missingField f.name)
    | none => return a
  | (key, o) :: rest => do
    let name ← key.text
    match r.fields.find? (·.name = name) with
    | some f =>
      if seen.contains name then throw (.duplicateField name)
      let a ← f.read m o a
      readMembers r m fault (name :: seen) a rest
    | none =>
      o.skim
      readMembers r m fault seen a rest

/-- What is behind the last field of a record that is written as an
array with `count` items. -/
def readEnd (r : Record α) (m : Mode) (fault : Option Fault) (count : Nat) :
    List Outline → Except Error Unit
  | [] => match fault with
    | none => .ok ()
    | some .commaBeforeBracket => .error .trailingComma
    | some .endOfArray => .error .endOfArray
    | some _ => .error .trailingCharacters
  | _ :: _ =>
    let n := r.fields.length
    if m.buffered then
      .error (.wrongLength count (toString n
        ++ (if n = 1 then " element" else " elements") ++ " in sequence"))
    else .error .trailingCharacters

/-- The items of an array, one for each field from the `index`th on. -/
def readItems (r : Record α) (m : Mode) (fault : Option Fault) (count : Nat)
    (index : Nat) (a : α) : List (Field α) → List Outline → Except Error α
  | [], os => do
    r.readEnd m fault count os
    return a
  | f :: fs, o :: os => do
    let a ← f.read m o a
    readItems r m fault count (index + 1) a fs os
  | fs, [] => do
    closing fault
    match fs.findIdx? (·.presence ≠ .defaulted) with
    | some i => throw (.wrongLength (index + i) r.withCount)
    | none => return a

/-- The reader of a record. -/
def reader (r : Record α) : Reader α := fun m o =>
  match o with
  | .object members fault => do
    r.readMembers (← m.enter) fault [] r.start members
  | .array os fault => do
    r.readItems (← m.enter) fault os.length 0 r.start r.fields os
  | o => .error (Strict.mismatch r.expected o)

end Record

/-- The record that a whole text holds. -/
def Record.ofText (r : Record α) (s : String) : Except Error α :=
  readText (r.reader .start) s

end TimedOverlay.Json
