/-
Blanks, letters and digits of a text, and the cutting of texts.

Blank means the Unicode property White_Space, the whole of it and
nothing more: the no-break space and the ideographic space are blank,
the zero-width space and the byte order mark are not. Letters are folded
in ASCII alone, so that a key such as `RIGHT` matches `right` while no
letter outside ASCII ever changes.
-/
namespace TimedOverlay.Text

-- ============================================================== blanks

/-- The property White_Space. -/
def isBlank (c : Char) : Bool :=
  let n := c.toNat
  (9 ≤ n && n ≤ 13) || n == 0x20 || n == 0x85 || n == 0xa0 || n == 0x1680
    || (0x2000 ≤ n && n ≤ 0x200a) || n == 0x2028 || n == 0x2029
    || n == 0x202f || n == 0x205f || n == 0x3000

/-- A text without the blanks at its start. -/
def trimStart (s : List Char) : List Char := s.dropWhile isBlank

/-- A text without the blanks at its end. -/
def trimEnd (s : List Char) : List Char :=
  (s.reverse.dropWhile isBlank).reverse

/-- A text without the blanks at its ends. -/
def trim (s : List Char) : List Char := trimEnd (trimStart s)

-- ==================================================== letters and digits

/-- ASCII letters in lower case, all else unchanged. -/
def fold (s : List Char) : List Char := s.map Char.toLower

/-- A word as it is compared: trimmed, in lower case. -/
def keyword (s : String) : String := String.ofList (fold (trim s.toList))

/-- The value of a hexadecimal digit. -/
def hexValue? (c : Char) : Option Nat :=
  if c.isDigit then some (c.toNat - '0'.toNat)
  else if 'a' ≤ c && c ≤ 'f' then some (c.toNat - 'a'.toNat + 10)
  else if 'A' ≤ c && c ≤ 'F' then some (c.toNat - 'A'.toNat + 10)
  else none

/-- A hexadecimal digit in lower case. -/
def hexDigit (n : Nat) : Char :=
  if n < 10 then Char.ofNat ('0'.toNat + n) else Char.ofNat ('a'.toNat + (n - 10))

-- =============================================================== cutting

/-- The pieces of a text between the occurrences of a separator; there
is always at least one. -/
def split (separator : Char) : List Char → List (List Char)
  | [] => [[]]
  | c :: rest =>
    if c = separator then [] :: split separator rest
    else match split separator rest with
      | [] => [[c]]
      | piece :: pieces => (c :: piece) :: pieces

/-- What follows `start` in a text that begins with it. -/
def after? (start : List Char) (s : List Char) : Option (List Char) :=
  if start.isPrefixOf s then some (s.drop start.length) else none

/-- What stands before `tail` in a text that ends with it. -/
def before? (tail : List Char) (s : List Char) : Option (List Char) :=
  (after? tail.reverse s.reverse).map List.reverse

end TimedOverlay.Text
