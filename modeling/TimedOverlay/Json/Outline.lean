/-
The outline of a JSON text: its structure as far as it can be followed.

A text can be wrong in ways that matter to one reader and not to
another: a reader of values minds the range of a number and the depth of
the nesting, a reader that passes over an unknown member minds neither,
and one that wants a number minds a string long before a bracket that is
missing behind it. The outline settles the structure once and leaves the
rest to its readers. It holds strings as they are spelled, and it ends
at the first place where the text stops being JSON; that place is marked
with a `Fault`.

Two readings are given here. `Outline.value` reads everything;
`Outline.skim` passes over a part that nobody asked for. Both report the
first thing wrong in the order of the text.
-/
import TimedOverlay.Json.Value

namespace TimedOverlay.Json

-- ================================================================ faults

/-- Where a text stops being JSON. -/
inductive Fault where
  | endOfValue
  | endOfArray
  | endOfObject
  | endOfNumber
  | endAfterComma
  | expectedValue
  | expectedWord
  | expectedColon
  | expectedCommaOrBracket
  | expectedCommaOrBrace
  | commaBeforeBracket
  | commaBeforeBrace
  | keyNotString
  | invalidNumber
deriving DecidableEq

namespace Fault

/-- What a reader of values calls a fault. -/
def whenRead : Fault → Error
  | .endOfValue => .endOfValue
  | .endOfArray => .endOfArray
  | .endOfObject => .endOfObject
  | .endOfNumber => .endOfValue
  | .endAfterComma => .endOfValue
  | .expectedValue => .expectedValue
  | .expectedWord => .expectedWord
  | .expectedColon => .expectedColon
  | .expectedCommaOrBracket => .expectedCommaOrBracket
  | .expectedCommaOrBrace => .expectedCommaOrBrace
  | .commaBeforeBracket => .trailingComma
  | .commaBeforeBrace => .trailingComma
  | .keyNotString => .keyNotString
  | .invalidNumber => .invalidNumber

/-- What is said of a fault in a part that is passed over. It has no
notion of a trailing comma, nor of a number that was cut short. -/
def whenSkimmed : Fault → Error
  | .endOfNumber => .invalidNumber
  | .endAfterComma => .endOfObject
  | .commaBeforeBracket => .expectedValue
  | .commaBeforeBrace => .keyNotString
  | fault => fault.whenRead

end Fault

-- =============================================================== strings

/-- A piece of a string: a character, or a code unit written as a
hexadecimal escape. -/
inductive Piece where
  | char (c : Char)
  | unit (n : Nat)
deriving DecidableEq

/-- Where a string stops being one. -/
inductive StringFault where
  | cut
  | control
  | escape
  | hex
deriving DecidableEq

/-- What a reader calls the fault of a string. -/
def StringFault.error : StringFault → Error
  | .cut => .endOfString
  | .control => .controlCharacter
  | .escape => .invalidEscape
  | .hex => .invalidEscape

/-- A string as it is spelled. -/
structure Spelling where
  pieces : List Piece
  fault : Option StringFault
deriving DecidableEq

namespace Spelling

/-- Whether a code unit begins a surrogate pair. -/
def isLeading (n : Nat) : Bool := 0xd800 ≤ n && n ≤ 0xdbff
/-- Whether a code unit ends a surrogate pair. -/
def isTrailing (n : Nat) : Bool := 0xdc00 ≤ n && n ≤ 0xdfff

/-- The character of a surrogate pair. -/
def pair (leading trailing : Nat) : Char :=
  Char.ofNat (0x10000 + (leading - 0xd800) * 0x400 + (trailing - 0xdc00))

/-- The characters of a spelling: surrogates have to come in pairs. -/
def chars (fault : Option StringFault) : List Piece → Except Error (List Char)
  | [] => match fault with
    | none => .ok []
    | some f => .error f.error
  | .char c :: rest => (c :: ·) <$> chars fault rest
  | .unit n :: rest =>
    if isTrailing n then .error .loneSurrogate
    else if isLeading n then
      match rest with
      | .unit m :: rest' =>
        if isTrailing m then (pair n m :: ·) <$> chars fault rest'
        else .error .loneSurrogate
      | .char _ :: _ => .error .brokenPair
      | [] => match fault with
        | some .cut => .error .endOfString
        | some .hex => .error .invalidEscape
        | _ => .error .brokenPair
    else (Char.ofNat n :: ·) <$> chars fault rest

/-- The string that is spelled. -/
def text (s : Spelling) : Except Error String :=
  String.ofList <$> chars s.fault s.pieces

/-- A string that is passed over: surrogates do not matter. -/
def skim (s : Spelling) : Except Error Unit :=
  match s.fault with
  | none => .ok ()
  | some f => .error f.error

end Spelling

-- ============================================================== outlines

/-- The structure of a text. A number beyond every double has no value,
and an array or object without a fault at its end is closed. -/
inductive Outline where
  | null
  | bool (b : Bool)
  | number (n : Option Number)
  | string (s : Spelling)
  | array (items : List Outline) (fault : Option Fault)
  | object (members : List (Spelling × Outline)) (fault : Option Fault)
  | broken (fault : Fault)

/-- The number at a place, if it has a value. -/
def inRange : Option Number → Except Error Number
  | some n => .ok n
  | none => .error .numberOutOfRange

/-- The end of an array or object. -/
def closing (fault : Option Fault) : Except Error Unit :=
  match fault with
  | none => .ok ()
  | some f => .error f.whenRead

namespace Outline

instance : Inhabited Outline := ⟨.null⟩

mutual

/-- The value of an outline, with at most `depth` arrays and objects
inside one another. -/
def value (depth : Nat) : Outline → Except Error Value
  | .null => .ok .null
  | .bool b => .ok (.bool b)
  | .number n => .number <$> inRange n
  | .string s => .string <$> s.text
  | .array items fault =>
    if depth = 0 then .error .tooDeep
    else do
      let vs ← values (depth - 1) items
      closing fault
      return .array vs
  | .object members fault =>
    if depth = 0 then .error .tooDeep
    else do
      let ms ← memberValues (depth - 1) members
      closing fault
      return .object ms
  | .broken f => .error f.whenRead

/-- The values of items. -/
def values (depth : Nat) : List Outline → Except Error (List Value)
  | [] => .ok []
  | o :: rest => do
    let v ← value depth o
    let vs ← values depth rest
    return v :: vs

/-- The values of members. -/
def memberValues (depth : Nat) :
    List (Spelling × Outline) → Except Error (List (String × Value))
  | [] => .ok []
  | (key, o) :: rest => do
    let name ← key.text
    let v ← value depth o
    let vs ← memberValues depth rest
    return (name, v) :: vs

end

mutual

/-- Passing over an outline: only its faults matter. -/
def skim : Outline → Except Error Unit
  | .string s => s.skim
  | .array items fault => do
    skimItems items
    match fault with
    | none => .ok ()
    | some f => .error f.whenSkimmed
  | .object members fault => do
    skimMembers members
    match fault with
    | none => .ok ()
    | some f => .error f.whenSkimmed
  | .broken f => .error f.whenSkimmed
  | .null => .ok ()
  | .bool _ => .ok ()
  | .number _ => .ok ()

/-- Passing over items. -/
def skimItems : List Outline → Except Error Unit
  | [] => .ok ()
  | o :: rest => do
    skim o
    skimItems rest

/-- Passing over members. -/
def skimMembers : List (Spelling × Outline) → Except Error Unit
  | [] => .ok ()
  | (key, o) :: rest => do
    key.skim
    skim o
    skimMembers rest

end

end Outline

-- ===================================================== values as outlines

/-- A string spelled without escapes. -/
def Spelling.plain (s : String) : Spelling := ⟨s.toList.map .char, none⟩

mutual

/-- A value as an outline, in which nothing is wrong. -/
def Value.outline : Value → Outline
  | .null => .null
  | .bool b => .bool b
  | .number n => .number (some n)
  | .string s => .string (.plain s)
  | .array items => .array (itemOutlines items) none
  | .object members => .object (memberOutlines members) none

/-- Items as outlines. -/
def itemOutlines : List Value → List Outline
  | [] => []
  | v :: rest => v.outline :: itemOutlines rest

/-- Members as outlines. -/
def memberOutlines : List (String × Value) → List (Spelling × Outline)
  | [] => []
  | (name, v) :: rest => (.plain name, v.outline) :: memberOutlines rest

end

end TimedOverlay.Json
