/-
JSON values.

The members of an object are kept in the order in which they were
written, repeated names included. Who looks a name up gets the last
member of that name (`last?`); who must not accept repetitions can
still see them.
-/
import TimedOverlay.Json.Error

namespace TimedOverlay.Json

/-- A JSON value. -/
inductive Value where
  | null
  | bool (b : Bool)
  | number (n : Number)
  | string (s : String)
  | array (items : List Value)
  | object (members : List (String × Value))

namespace Value

instance : Inhabited Value := ⟨.null⟩

/-- A natural number as a value. -/
def ofNat (n : Nat) : Value := .number (.integer n)

/-- An optional part as a value, null if it is absent. -/
def ofOption (write : α → Value) : Option α → Value
  | none => .null
  | some a => write a

-- =============================================================== look-up

/-- The last value of a name among members. -/
def last? (name : String) (members : List (String × Value)) : Option Value :=
  (members.reverse.find? (·.1 = name)).map (·.2)

/-- The fields of a value that may be written as an object or, in the
order of `names`, as an array: the value of each name that has one.
Other values, and arrays with more items than names, have no fields. -/
def fields? (names : List String) : Value → Option (String → Option Value)
  | .object members => some fun name => last? name members
  | .array items =>
    if items.length ≤ names.length then
      some fun name => (names.zip items).lookup name
    else none
  | _ => none

/-- The fields of a value, none at all if it has no such form. -/
def fields (names : List String) (v : Value) (name : String) : Option Value :=
  (v.fields? names).bind (· name)

end Value

end TimedOverlay.Json
