/-
From a text to its outline.

A text is cut into tokens first (`Token.scan`), and the tokens are put
together by a machine that takes one token per step (`Outline.assemble`).
The machine holds the arrays and objects that are still open, innermost
first, and what may come next. It stops when the outermost value is
complete, or at the first token that cannot come next; what is open then
is closed around the fault.

Each token is scanned from the front of the text that is left, so the
scanner ends because that text gets shorter.
-/
import TimedOverlay.Json.Literal
import TimedOverlay.Json.Outline

namespace TimedOverlay.Json

-- =============================================================== strings

/-- The code unit of four hexadecimal digits. -/
def codeUnit? (a b c d : Char) : Option Nat := do
  return (((← Text.hexValue? a) * 16 + (← Text.hexValue? b)) * 16
    + (← Text.hexValue? c)) * 16 + (← Text.hexValue? d)

/-- The character of an escape of one letter. -/
def escaped? : Char → Option Char
  | '"' => some '"'
  | '\\' => some '\\'
  | '/' => some '/'
  | 'b' => some '\x08'
  | 'f' => some '\x0c'
  | 'n' => some '\n'
  | 'r' => some '\r'
  | 't' => some '\t'
  | _ => none

/-- The length of a text in bytes. -/
def byteCount (s : List Char) : Nat :=
  s.foldr (fun c n => c.utf8Size + n) 0

namespace Spelling

/-- One more piece in front of a spelling. -/
def cons (p : Piece) (s : Spelling × List Char) : Spelling × List Char :=
  (⟨p :: s.1.pieces, s.1.fault⟩, s.2)

/-- A spelling that stops being a string here. -/
def stop (f : StringFault) : Spelling × List Char := (⟨[], some f⟩, [])

/-- The string whose opening quote has been taken, and the text behind
its closing quote. A hexadecimal escape with less than four bytes left
is cut off by the end of the text. -/
def scan : List Char → Spelling × List Char
  | [] => stop .cut
  | '"' :: rest => (⟨[], none⟩, rest)
  | ['\\'] => stop .cut
  | '\\' :: 'u' :: a :: b :: c :: d :: rest =>
    match codeUnit? a b c d with
    | some n => cons (.unit n) (scan rest)
    | none => stop .hex
  | '\\' :: 'u' :: rest => stop (if byteCount rest < 4 then .cut else .hex)
  | '\\' :: e :: rest =>
    match escaped? e with
    | some c => cons (.char c) (scan rest)
    | none => stop .escape
  | c :: rest =>
    if c.toNat < 0x20 then stop .control else cons (.char c) (scan rest)

/-- A string never grows the text behind it. -/
theorem scan_length_le (s : List Char) : (scan s).2.length ≤ s.length := by
  fun_induction scan s <;> simp_all [stop, cons] <;> omega

end Spelling

-- =============================================================== numbers

namespace Literal

/-- How a number can fail: by the end of the text, or by a character. -/
def numberFault (rest : List Char) : Fault :=
  if rest = [] then .endOfNumber else .invalidNumber

/-- The digits behind a point, if there is one; it needs a digit. -/
def scanFraction : List Char → Except Fault (List Char × List Char)
  | '.' :: rest =>
    let (digits, rest) := Decimal.takeDigits rest
    if digits = [] then .error (numberFault rest) else .ok (digits, rest)
  | s => .ok ([], s)

/-- The exponent behind its mark, if there is one; it needs a digit. -/
def scanExponent : List Char → Except Fault (Option Int × List Char)
  | [] => .ok (none, [])
  | mark :: rest =>
    if mark = 'e' ∨ mark = 'E' then
      let (negative, rest) := Decimal.takeSign rest
      let (digits, rest) := Decimal.takeDigits rest
      if digits = [] then .error (numberFault rest)
      else
        let n : Int := Decimal.digitsValue digits
        .ok (some (if negative then -n else n), rest)
    else .ok (none, mark :: rest)

/-- A number without its sign at the start of a text, and the rest of
the text. A zero in front stands alone. -/
def scanUnsigned (negative : Bool) (s : List Char) :
    Except Fault (Literal × List Char) :=
  let (whole, rest) := Decimal.takeDigits s
  if whole = [] then .error (numberFault rest)
  else if whole.length ≠ 1 ∧ whole.head? = some '0' then
    .error .invalidNumber
  else match scanFraction rest with
    | .error f => .error f
    | .ok (fraction, rest) => match scanExponent rest with
      | .error f => .error f
      | .ok (exponent, rest) => .ok (⟨negative, whole, fraction, exponent⟩, rest)

/-- The number at the start of a text, and the rest of the text. -/
def scan : List Char → Except Fault (Literal × List Char)
  | '-' :: rest => scanUnsigned true rest
  | s => scanUnsigned false s

end Literal

-- ================================================================ tokens

/-- The tokens of a text; one that is broken is the last. -/
inductive Token where
  | openArray
  | closeArray
  | openObject
  | closeObject
  | comma
  | colon
  | null
  | bool (b : Bool)
  | number (n : Option Number)
  | string (s : Spelling)
  | broken (f : Fault)

/-- The blanks between tokens. -/
def isSpace (c : Char) : Bool :=
  c = ' ' || c = '\n' || c = '\t' || c = '\r'

/-- What remains of a text behind a word; a fault if it is another word
or is cut short. -/
def scanWord : List Char → List Char → Except Fault (List Char)
  | [], s => .ok s
  | _ :: _, [] => .error .endOfValue
  | c :: word, d :: s => if c = d then scanWord word s else .error .expectedWord

namespace Token

/-- The token at the start of a text that begins with no blank, and the
rest of the text. Nothing is left behind a broken token. -/
def next (c : Char) (rest : List Char) : Token × List Char :=
  let word (t : Token) (letters : List Char) : Token × List Char :=
    match scanWord letters rest with
    | .ok rest => (t, rest)
    | .error f => (.broken f, [])
  match c with
  | '[' => (.openArray, rest)
  | ']' => (.closeArray, rest)
  | '{' => (.openObject, rest)
  | '}' => (.closeObject, rest)
  | ',' => (.comma, rest)
  | ':' => (.colon, rest)
  | 'n' => word .null ['u', 'l', 'l']
  | 't' => word (.bool true) ['r', 'u', 'e']
  | 'f' => word (.bool false) ['a', 'l', 's', 'e']
  | '"' =>
    let (s, rest) := Spelling.scan rest
    (.string s, rest)
  | c =>
    if c = '-' || c.isDigit then
      match Literal.scan (c :: rest) with
      | .ok (l, rest) => (.number l.number?, rest)
      | .error f => (.broken f, [])
    else (.broken .expectedValue, [])

end Token

-- ------------------------------------------------- the text gets shorter

theorem takeDigits_length_le (s : List Char) :
    (Decimal.takeDigits s).2.length ≤ s.length := by
  unfold Decimal.takeDigits
  exact (List.dropWhile_sublist _).length_le

theorem takeSign_length_le (s : List Char) :
    (Decimal.takeSign s).2.length ≤ s.length := by
  unfold Decimal.takeSign
  split <;> simp

theorem scanWord_length_le {word s rest : List Char}
    (h : scanWord word s = .ok rest) : rest.length ≤ s.length := by
  fun_induction scanWord word s <;> grind

namespace Literal

theorem scanFraction_length_le {s fraction rest : List Char}
    (h : scanFraction s = .ok (fraction, rest)) : rest.length ≤ s.length := by
  unfold scanFraction at h
  split at h
  · have := takeDigits_length_le ‹List Char›
    grind
  · grind

theorem scanExponent_length_le {s rest : List Char} {e : Option Int}
    (h : scanExponent s = .ok (e, rest)) : rest.length ≤ s.length := by
  unfold scanExponent at h
  split at h
  · grind
  · rename_i mark tail
    have h₁ := takeSign_length_le tail
    have h₂ := takeDigits_length_le (Decimal.takeSign tail).2
    grind

theorem scanUnsigned_length_lt {negative : Bool} {s rest : List Char}
    {l : Literal} (h : scanUnsigned negative s = .ok (l, rest)) :
    rest.length < s.length := by
  unfold scanUnsigned at h
  have hd : (Decimal.takeDigits s).1.length + (Decimal.takeDigits s).2.length
      = s.length := by
    unfold Decimal.takeDigits
    rw [← List.length_append, List.takeWhile_append_dropWhile]
  dsimp only at h
  split at h
  · grind
  · rename_i hw
    have hpos := List.length_pos_iff.2 hw
    split at h
    · grind
    · split at h
      · grind
      · rename_i hf
        have := scanFraction_length_le hf
        split at h
        · grind
        · rename_i he
          have := scanExponent_length_le he
          grind

/-- A number takes at least one character. -/
theorem scan_length_lt {s rest : List Char} {l : Literal}
    (h : scan s = .ok (l, rest)) : rest.length < s.length := by
  unfold scan at h
  split at h
  · have := scanUnsigned_length_lt h
    grind
  · exact scanUnsigned_length_lt h

end Literal

theorem Token.next_length_le (c : Char) (rest : List Char) :
    (Token.next c rest).2.length ≤ rest.length := by
  have hword (t : Token) (letters : List Char) :
      (match scanWord letters rest with
        | .ok rest => (t, rest)
        | .error f => (Token.broken f, ([] : List Char))).2.length
        ≤ rest.length := by
    split
    · exact scanWord_length_le ‹_›
    · simp
  unfold Token.next
  dsimp only
  split <;> try exact Nat.le_refl _
  · exact hword _ _
  · exact hword _ _
  · exact hword _ _
  · exact Spelling.scan_length_le rest
  · split
    · split
      · have := Literal.scan_length_lt ‹_›
        grind
      · simp
    · simp

/-- The tokens of a text. -/
def Token.scan : List Char → List Token
  | [] => []
  | c :: rest =>
    if isSpace c then Token.scan rest
    else (Token.next c rest).1 :: Token.scan (Token.next c rest).2
termination_by s => s.length
decreasing_by
  · simp
  · have := Token.next_length_le c rest
    simp only [List.length_cons]
    omega

-- ============================================================== machine

/-- An array or object that is still open: its parts so far, the last
one first. A member waits for its value. -/
inductive Frame where
  | array (done : List Outline)
  | object (done : List (Spelling × Outline))
  | member (done : List (Spelling × Outline)) (key : Spelling)

/-- What may come next. -/
inductive Next where
  | value
  | firstItem
  | item
  | firstKey
  | key
  | colon
  | more

/-- A step goes on with the frames that are open, or ends with the
outline of the whole. -/
inductive Step where
  | go (next : Next) (frames : List Frame)
  | stop (o : Outline)

namespace Outline

/-- The frame closed, with or without a fault. -/
def close (fault : Option Fault) : Frame → Outline
  | .array done => .array done.reverse fault
  | .object done => .object done.reverse fault
  | .member done key =>
    .object ((key, .broken .expectedColon) :: done).reverse fault

/-- The frame with one more part. -/
def put (o : Outline) : Frame → Frame
  | .array done => .array (o :: done)
  | .object done => .object done
  | .member done key => .object ((key, o) :: done)

/-- A complete part goes into the innermost frame. -/
def deliver (o : Outline) : List Frame → Step
  | [] => .stop o
  | f :: fs => .go .more (put o f :: fs)

/-- The outline of the whole when its innermost part stops at a fault:
every frame around it is closed. -/
def unwind (o : Outline) (frames : List Frame) : Outline :=
  frames.foldl (fun o f => close none (put o f)) o

/-- The outline of the whole when the innermost frame stops at a
fault. -/
def failFrame (fault : Fault) : List Frame → Outline
  | [] => .broken fault
  | f :: fs => unwind (close (some fault) f) fs

/-- The innermost frame is closed and goes into the one around it. -/
def finishFrame : List Frame → Step
  | [] => .stop (.broken .expectedValue)
  | f :: fs => deliver (close none f) fs

/-- A token where a value has to start. -/
def valueStep (frames : List Frame) : Token → Step
  | .null => deliver .null frames
  | .bool b => deliver (.bool b) frames
  | .number n => deliver (.number n) frames
  | .string s => deliver (.string s) frames
  | .openArray => .go .firstItem (.array [] :: frames)
  | .openObject => .go .firstKey (.object [] :: frames)
  | .broken f => .stop (unwind (.broken f) frames)
  | .closeArray => .stop (unwind (.broken .expectedValue) frames)
  | .closeObject => .stop (unwind (.broken .expectedValue) frames)
  | .comma => .stop (unwind (.broken .expectedValue) frames)
  | .colon => .stop (unwind (.broken .expectedValue) frames)

/-- A token where a key has to stand. -/
def keyStep (frames : List Frame) : Token → Step
  | .string s => match frames with
    | .object done :: fs => .go .colon (.member done s :: fs)
    | fs => .stop (failFrame .keyNotString fs)
  | _ => .stop (failFrame .keyNotString frames)

/-- A token behind a complete part. -/
def moreStep (frames : List Frame) (t : Token) : Step :=
  match frames with
  | .array _ :: _ => match t with
    | .comma => .go .item frames
    | .closeArray => finishFrame frames
    | _ => .stop (failFrame .expectedCommaOrBracket frames)
  | _ => match t with
    | .comma => .go .key frames
    | .closeObject => finishFrame frames
    | _ => .stop (failFrame .expectedCommaOrBrace frames)

/-- One token. -/
def step (next : Next) (frames : List Frame) (t : Token) : Step :=
  match next with
  | .value => valueStep frames t
  | .firstItem => match t with
    | .closeArray => finishFrame frames
    | t => valueStep frames t
  | .item => match t with
    | .closeArray => .stop (failFrame .commaBeforeBracket frames)
    | t => valueStep frames t
  | .firstKey => match t with
    | .closeObject => finishFrame frames
    | t => keyStep frames t
  | .key => match t with
    | .closeObject => .stop (failFrame .commaBeforeBrace frames)
    | t => keyStep frames t
  | .colon => match t with
    | .colon => .go .value frames
    | _ => .stop (unwind (.broken .expectedColon) frames)
  | .more => moreStep frames t

/-- The end of the text. -/
def stepEnd (next : Next) (frames : List Frame) : Outline :=
  match next with
  | .value => unwind (.broken .endOfValue) frames
  | .item => unwind (.broken .endOfValue) frames
  | .firstItem => failFrame .endOfArray frames
  | .firstKey => failFrame .endOfObject frames
  | .key => failFrame .endAfterComma frames
  | .colon => unwind (.broken .endOfObject) frames
  | .more => match frames with
    | .array _ :: _ => failFrame .endOfArray frames
    | _ => failFrame .endOfObject frames

/-- The outline of the value at the start of some tokens, and the tokens
behind it. -/
def assemble (next : Next) (frames : List Frame) :
    List Token → Outline × List Token
  | [] => (stepEnd next frames, [])
  | t :: ts => match step next frames t with
    | .go next frames => assemble next frames ts
    | .stop o => (o, ts)

end Outline

/-- A text as its readers see it: the outline of the value in it, and
whether there is more behind that. -/
structure Text where
  outline : Outline
  more : Bool

/-- The outline of a text. -/
def Text.scan (s : String) : Text :=
  let (outline, rest) := Outline.assemble .value [] (Token.scan s.toList)
  ⟨outline, !rest.isEmpty⟩

/-- The nesting that readers follow, the outermost value included. -/
def depthLimit : Nat := 127

/-- What a reader makes of a whole text. -/
def readText (read : Outline → Except Error α) (s : String) :
    Except Error α := do
  let t := Text.scan s
  let a ← read t.outline
  if t.more then throw .trailingCharacters
  return a

/-- The value of a text. -/
def read (s : String) : Except Error Value :=
  readText (Outline.value depthLimit) s

end TimedOverlay.Json
