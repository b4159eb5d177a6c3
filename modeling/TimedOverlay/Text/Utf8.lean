/-
Reading bytes as text.

`decode` cuts a run of bytes into characters and ill-formed pieces; a
piece is as long as the start of some character it could have been, so
that damage costs as little of the text as possible. Strict reading
(`text?`) accepts only what has no such piece, lossy reading (`lossy`)
puts the replacement character in place of each.
-/
namespace TimedOverlay.Utf8

-- ============================================================== decoding

/-- What the first byte of a longer character asks for: the number of
bytes behind it, and the bounds of the next one. -/
structure Lead where
  following : Nat
  low : UInt8
  high : UInt8

/-- The first bytes of characters beyond ASCII. The bounds shut out
overlong forms, surrogates and what lies beyond the last character. -/
def lead? (b : UInt8) : Option Lead :=
  if 0xc2 ≤ b && b ≤ 0xdf then some ⟨1, 0x80, 0xbf⟩
  else if b == 0xe0 then some ⟨2, 0xa0, 0xbf⟩
  else if b == 0xed then some ⟨2, 0x80, 0x9f⟩
  else if 0xe1 ≤ b && b ≤ 0xef then some ⟨2, 0x80, 0xbf⟩
  else if b == 0xf0 then some ⟨3, 0x90, 0xbf⟩
  else if 0xf1 ≤ b && b ≤ 0xf3 then some ⟨3, 0x80, 0xbf⟩
  else if b == 0xf4 then some ⟨3, 0x80, 0x8f⟩
  else none

/-- Whether a byte can stand inside a character. -/
def isTail (b : UInt8) : Bool := 0x80 ≤ b && b ≤ 0xbf

/-- The value of the bits that a byte adds to a character. -/
def tailBits (b : UInt8) : Nat := b.toNat % 64

/-- Characters in order; nothing stands for each ill-formed piece. -/
def decode : List UInt8 → List (Option Char)
  | [] => []
  | b :: r =>
    if b < 0x80 then some (Char.ofNat b.toNat) :: decode r
    else match lead? b with
      | none => none :: decode r
      | some l =>
        let bits := b.toNat % (1 <<< (6 - l.following))
        match r with
        | [] => [none]
        | b₁ :: r₁ =>
          if !(l.low ≤ b₁ && b₁ ≤ l.high) then none :: decode (b₁ :: r₁)
          else if l.following = 1 then
            some (Char.ofNat (bits * 64 + tailBits b₁)) :: decode r₁
          else match r₁ with
            | [] => [none]
            | b₂ :: r₂ =>
              if !isTail b₂ then none :: decode (b₂ :: r₂)
              else if l.following = 2 then
                some (Char.ofNat ((bits * 64 + tailBits b₁) * 64
                  + tailBits b₂)) :: decode r₂
              else match r₂ with
                | [] => [none]
                | b₃ :: r₃ =>
                  if !isTail b₃ then none :: decode (b₃ :: r₃)
                  else some (Char.ofNat (((bits * 64 + tailBits b₁) * 64
                    + tailBits b₂) * 64 + tailBits b₃)) :: decode r₃
termination_by bytes => bytes.length
decreasing_by all_goals simp only [List.length_cons]; omega

-- ================================================================== text

/-- The text of well-formed bytes. -/
def text? (bytes : List UInt8) : Option String :=
  ((decode bytes).mapM id).map String.ofList

/-- The text of any bytes, with U+FFFD for each ill-formed piece. -/
def lossy (bytes : List UInt8) : String :=
  String.ofList ((decode bytes).map (·.getD (Char.ofNat 0xfffd)))

/-- The bytes of a text. -/
def encode (s : String) : List UInt8 := s.toUTF8.toList

end TimedOverlay.Utf8
