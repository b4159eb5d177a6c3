/-
Texts as bytes, and read back.

The bytes of a text are those of its characters, one after another
(`encode_eq`). The first byte of a character tells how many follow and
within which bounds the next one lies; the bounds leave room for the
shortest form of every character and for no other, so the bytes of one
character are read as that character, whatever stands behind them
(`decode_character`). Hence a text is read back from its bytes
(`text?_encode`), and a file that holds them is a file of this text.
-/
import Mathlib.Tactic.IntervalCases
import TimedOverlay.Storage.FileSystem

namespace TimedOverlay

namespace Utf8

-- ============================================================= encoding

/-- The bytes from a place on come behind those that were taken. -/
theorem toList_loop (bs : ByteArray) (i : Nat) (taken : List UInt8) :
    ByteArray.toList.loop bs i taken
      = taken.reverse ++ bs.data.toList.drop i := by
  fun_induction ByteArray.toList.loop bs i taken with
  | case1 i taken h ih =>
      have hi : i < bs.data.toList.length := by simpa using h
      rw [ih, List.reverse_cons, List.append_assoc,
        List.drop_eq_getElem_cons hi]
      have hget : bs.get! i = bs.data.toList[i] := by
        simp [ByteArray.get!, getElem!_pos bs.data i h]
      rw [hget]
      rfl
  | case2 i taken h =>
      have hi : bs.data.toList.length ≤ i := by simpa using h
      rw [List.drop_eq_nil_of_le hi, List.append_nil]

theorem encode_eq (s : String) :
    encode s = s.toList.flatMap String.utf8EncodeChar := by
  unfold encode
  rw [String.toUTF8, ← String.utf8Encode_toList, ByteArray.toList,
    toList_loop]
  simp [List.utf8Encode]

-- ================================================================ bytes

theorem toNat_byte {n : Nat} (h : n < 256) : (UInt8.ofNat n).toNat = n := by
  rw [UInt8.toNat_ofNat']
  exact Nat.mod_eq_of_lt h

/-- The first byte of a character of two bytes. -/
theorem lead?_two {k : Nat} (hlow : 2 ≤ k) (hhigh : k < 32) :
    lead? (.ofNat (k + 192)) = some ⟨1, 0x80, 0xbf⟩ := by
  have hb := toNat_byte (n := k + 192) (by omega)
  unfold lead?
  rw [if_pos]
  simp only [UInt8.le_iff_toNat_le, hb, Bool.and_eq_true, decide_eq_true_eq,
    UInt8.reduceToNat]
  omega

/-- The first byte of a character of three. What is shorter with two bytes
is too low, and surrogates are too high. -/
theorem lead?_three {k : Nat} (hk : k < 16) :
    ∃ l, lead? (.ofNat (k + 224)) = some l ∧ l.following = 2
      ∧ l.low.toNat = (if k = 0 then 0xa0 else 0x80)
      ∧ l.high.toNat = (if k = 13 then 0x9f else 0xbf) := by
  interval_cases k <;> exact ⟨_, rfl, rfl, rfl, rfl⟩

/-- The first byte of a character of four. What is shorter with three is
too low, and what is beyond the last character is too high. -/
theorem lead?_four {k : Nat} (hk : k < 5) :
    ∃ l, lead? (.ofNat (k + 240)) = some l ∧ l.following = 3
      ∧ l.low.toNat = (if k = 0 then 0x90 else 0x80)
      ∧ l.high.toNat = (if k = 4 then 0x8f else 0xbf) := by
  interval_cases k <;> exact ⟨_, rfl, rfl, rfl, rfl⟩

theorem between_iff {b low high : UInt8} :
    (decide (low ≤ b) && decide (b ≤ high)) = true
      ↔ low.toNat ≤ b.toNat ∧ b.toNat ≤ high.toNat := by
  simp only [UInt8.le_iff_toNat_le, Bool.and_eq_true, decide_eq_true_eq]

theorem isTail_byte {k : Nat} (hk : k < 64) :
    isTail (.ofNat (k + 128)) = true := by
  apply between_iff.2
  rw [toNat_byte (by omega)]
  simp only [UInt8.reduceToNat]
  omega

theorem tailBits_byte {k : Nat} (hk : k < 64) :
    tailBits (.ofNat (k + 128)) = k := by
  unfold tailBits
  rw [toNat_byte (by omega)]
  omega

/-- A byte from 128 on does not stand for itself. -/
theorem not_lt_byte {n : Nat} (hlow : 128 ≤ n) (hhigh : n < 256) :
    ¬ UInt8.ofNat n < 0x80 := by
  rw [UInt8.lt_iff_toNat_lt, toNat_byte hhigh]
  exact Nat.not_lt.2 hlow

-- =========================================================== characters

variable {v : Nat}

theorem decode_one (h : v ≤ 127) (r : List UInt8) :
    decode (.ofNat v :: r) = some (Char.ofNat v) :: decode r := by
  have hb := toNat_byte (n := v) (by omega)
  have hlt : UInt8.ofNat v < 0x80 := by
    rw [UInt8.lt_iff_toNat_lt, hb]
    exact Nat.lt_succ_of_le h
  rw [decode, if_pos hlt, hb]

theorem decode_two (hlow : 127 < v) (hhigh : v ≤ 2047) (r : List UInt8) :
    decode (.ofNat (v / 64 % 32 + 192) :: .ofNat (v % 64 + 128) :: r)
      = some (Char.ofNat v) :: decode r := by
  have hnext : (decide ((0x80 : UInt8) ≤ .ofNat (v % 64 + 128))
      && decide (UInt8.ofNat (v % 64 + 128) ≤ 0xbf)) = true :=
    isTail_byte (by omega)
  have hvalue : (v / 64 % 32 + 192) % (1 <<< (6 - 1)) * 64 + v % 64 = v := by
    rw [Nat.shiftLeft_eq]
    omega
  rw [decode, if_neg (not_lt_byte (by omega) (by omega)),
    lead?_two (by omega) (by omega)]
  dsimp only
  rw [hnext, toNat_byte (by omega), tailBits_byte (by omega), hvalue]
  rfl

theorem decode_three (hlow : 2047 < v) (hhigh : v ≤ 65535)
    (hpair : v < 0xd800 ∨ 0xdfff < v) (r : List UInt8) :
    decode (.ofNat (v / 4096 % 16 + 224) :: .ofNat (v / 64 % 64 + 128)
        :: .ofNat (v % 64 + 128) :: r)
      = some (Char.ofNat v) :: decode r := by
  obtain ⟨l, hl, hfollowing, hllow, hlhigh⟩ :=
    lead?_three (k := v / 4096 % 16) (by omega)
  have hnext : (decide (l.low ≤ .ofNat (v / 64 % 64 + 128))
      && decide (UInt8.ofNat (v / 64 % 64 + 128) ≤ l.high)) = true := by
    rw [between_iff, hllow, hlhigh, toNat_byte (by omega)]
    split <;> split <;> omega
  have hvalue : ((v / 4096 % 16 + 224) % (1 <<< (6 - 2)) * 64
      + v / 64 % 64) * 64 + v % 64 = v := by
    rw [Nat.shiftLeft_eq]
    omega
  rw [decode, if_neg (not_lt_byte (by omega) (by omega)), hl]
  dsimp only
  rw [hnext, hfollowing, isTail_byte (by omega), toNat_byte (by omega),
    tailBits_byte (by omega), tailBits_byte (by omega), hvalue]
  rfl

theorem decode_four (hlow : 65535 < v) (hhigh : v < 0x110000)
    (r : List UInt8) :
    decode (.ofNat (v / 262144 % 8 + 240) :: .ofNat (v / 4096 % 64 + 128)
        :: .ofNat (v / 64 % 64 + 128) :: .ofNat (v % 64 + 128) :: r)
      = some (Char.ofNat v) :: decode r := by
  obtain ⟨l, hl, hfollowing, hllow, hlhigh⟩ :=
    lead?_four (k := v / 262144 % 8) (by omega)
  have hnext : (decide (l.low ≤ .ofNat (v / 4096 % 64 + 128))
      && decide (UInt8.ofNat (v / 4096 % 64 + 128) ≤ l.high)) = true := by
    rw [between_iff, hllow, hlhigh, toNat_byte (by omega)]
    split <;> split <;> omega
  have hvalue : (((v / 262144 % 8 + 240) % (1 <<< (6 - 3)) * 64
      + v / 4096 % 64) * 64 + v / 64 % 64) * 64 + v % 64 = v := by
    rw [Nat.shiftLeft_eq]
    omega
  rw [decode, if_neg (not_lt_byte (by omega) (by omega)), hl]
  dsimp only
  rw [hnext, hfollowing, isTail_byte (by omega), isTail_byte (by omega),
    toNat_byte (by omega), tailBits_byte (by omega),
    tailBits_byte (by omega), tailBits_byte (by omega), hvalue]
  rfl

/-- The bytes of a character are read as that character. -/
theorem decode_character (c : Char) (r : List UInt8) :
    decode (String.utf8EncodeChar c ++ r) = some c :: decode r := by
  have hvalid : c.toNat < 0xd800 ∨ 0xdfff < c.toNat ∧ c.toNat < 0x110000 :=
    c.valid
  have hself : some c = some (Char.ofNat c.toNat) := by
    rw [Char.ofNat_toNat]
  rw [hself]
  change c.val.toNat < 0xd800 ∨ 0xdfff < c.val.toNat ∧ c.val.toNat < 0x110000
    at hvalid
  unfold String.utf8EncodeChar
  dsimp only
  split
  next h => exact decode_one h r
  next h1 =>
    split
    next h2 => exact decode_two (by omega) h2 r
    next h2 =>
      split
      next h3 => exact decode_three (by omega) h3 (by omega) r
      next h3 => exact decode_four (by omega) (by omega) r

theorem decode_encode (s : String) :
    decode (encode s) = s.toList.map some := by
  rw [encode_eq]
  induction s.toList with
  | nil => rw [List.flatMap_nil, decode, List.map_nil]
  | cons c cs ih =>
      rw [List.flatMap_cons, decode_character, ih, List.map_cons]

/-- A text is read back from its bytes. -/
theorem text?_encode (s : String) : text? (encode s) = some s := by
  unfold text?
  rw [decode_encode]
  have hall : ∀ cs : List Char, (cs.map some).mapM id = some cs := by
    intro cs
    induction cs with
    | nil => rfl
    | cons c cs ih =>
        rw [List.map_cons, List.mapM_cons, ih]
        rfl
  rw [hall, Option.map_some, String.ofList_toList]

end Utf8

/-- A file that holds the bytes of a text is a file of this text. -/
theorem FileSystem.text_of_contents {fs : FileSystem} {path : SystemString} {s : String}
    (h : fs.contents path = .ok (Utf8.encode s)) : fs.text path = .ok s := by
  unfold FileSystem.text
  rw [h]
  dsimp only [bind, Except.bind]
  rw [Utf8.text?_encode]
  rfl

end TimedOverlay
