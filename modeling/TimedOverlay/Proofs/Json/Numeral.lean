/-
The numbers of JSON as they are spelled.

A numeral (`Numeral`) is one of the spellings that JSON has for a number:
digits without a zero too many in front, and, where they are wanted, a
minus, a fraction and an exponent. There are two readers for it. The one
for numbers written as text (`numeral?_chars`) takes more than numerals
and ends at the double nearest to the decimal that is spelled. The one of
JSON takes numerals and nothing else (`Literal.scan_iff`), keeps whole
numbers of 64 bits exact, and rounds all others twice; where that makes no
difference, it ends at the same double (`exists_read`).
-/
import TimedOverlay.Json.Scan
import TimedOverlay.Proofs.Json.Literal
import TimedOverlay.Proofs.Json.Reading
import TimedOverlay.Proofs.Text.Classes
import Mathlib.Data.Nat.Digits.Defs

namespace TimedOverlay.Json

-- ============================================================= numerals

/-- One digit or more. -/
structure DigitRun where
  chars : List Char
  nonempty : chars ≠ []
  digits : Text.Digits chars

/-- An exponent as it is spelled: its mark, a sign if it has one, and its
digits, which may start with zeros. -/
structure Exponent where
  capital : Bool
  sign : Option Bool
  digits : DigitRun

/-- A number as JSON spells it. A zero in front stands alone. -/
structure Numeral where
  negative : Bool
  whole : DigitRun
  fraction : Option DigitRun
  exponent : Option Exponent
  zero_alone : whole.chars.head? = some '0' → whole.chars.length = 1

namespace Exponent

/-- The sign of an exponent in characters; true is a minus. -/
def signChars : Option Bool → List Char
  | none => []
  | some true => ['-']
  | some false => ['+']

/-- The characters of an exponent. -/
def chars (e : Exponent) : List Char :=
  (if e.capital then 'E' else 'e') :: (signChars e.sign ++ e.digits.chars)

/-- The power of ten that is meant. -/
def value (e : Exponent) : Int :=
  let n : Int := Decimal.digitsValue e.digits.chars
  if e.sign = some true then -n else n

end Exponent

namespace Numeral

/-- A point and the digits behind it, if there are any. -/
def fractionChars : Option DigitRun → List Char
  | none => []
  | some ds => '.' :: ds.chars

/-- The characters of an exponent, if there is one. -/
def exponentChars : Option Exponent → List Char
  | none => []
  | some e => e.chars

variable (n : Numeral)

/-- The characters behind the sign. -/
def unsignedChars : List Char :=
  n.whole.chars ++ (fractionChars n.fraction ++ exponentChars n.exponent)

/-- The characters of a numeral. -/
def chars : List Char :=
  if n.negative then '-' :: n.unsignedChars else n.unsignedChars

/-- The parts of a numeral. -/
def literal : Literal :=
  { negative := n.negative
    whole := n.whole.chars
    fraction := (n.fraction.map DigitRun.chars).getD []
    exponent := n.exponent.map Exponent.value }

/-- Digits with or without a minus. -/
def ofDigits (negative : Bool) (ds : DigitRun)
    (h : ds.chars.head? = some '0' → ds.chars.length = 1) : Numeral :=
  ⟨negative, ds, none, none, h⟩

/-- The double nearest to the number that is spelled. -/
def nearest : Binary64 := n.literal.decimal.toBinary64

end Numeral

-- ======================================================= first and last

theorem DigitRun.exists_cons (ds : DigitRun) :
    ∃ c rest, ds.chars = c :: rest ∧ c.isDigit = true := by
  obtain ⟨c, rest, h⟩ := List.exists_cons_of_ne_nil ds.nonempty
  exact ⟨c, rest, h, ds.digits c (h ▸ List.mem_cons_self)⟩

theorem takeSign_of_isDigit {c : Char} (h : c.isDigit = true)
    (rest : List Char) :
    Decimal.takeSign (c :: rest) = (false, c :: rest) := by
  unfold Decimal.takeSign
  split
  next heq =>
    cases heq
    cases h
  next heq =>
    cases heq
    cases h
  next => rfl

/-- Digits have no sign in front. -/
theorem DigitRun.takeSign (ds : DigitRun) (rest : List Char) :
    Decimal.takeSign (ds.chars ++ rest) = (false, ds.chars ++ rest) := by
  obtain ⟨c, ds', h, hc⟩ := ds.exists_cons
  rw [h]
  exact takeSign_of_isDigit hc _

namespace Exponent

theorem takeSign (e : Exponent) :
    Decimal.takeSign (signChars e.sign ++ e.digits.chars)
      = (decide (e.sign = some true), e.digits.chars) := by
  cases e.sign with
  | none =>
      have h := e.digits.takeSign []
      rw [List.append_nil] at h
      exact h
  | some minus =>
      cases minus with
      | true => rfl
      | false => rfl

theorem mark_cases (e : Exponent) :
    ∃ mark, (mark = 'e' ∨ mark = 'E')
      ∧ e.chars = mark :: (signChars e.sign ++ e.digits.chars) := by
  unfold chars
  split
  next => exact ⟨'E', .inr rfl, rfl⟩
  next => exact ⟨'e', .inl rfl, rfl⟩

end Exponent

namespace Numeral

/-- What stands behind the fraction starts neither with a digit nor with
a point. -/
theorem head?_exponentChars {exponent : Option Exponent} {c : Char}
    (h : (exponentChars exponent).head? = some c) :
    c.isDigit = false ∧ c ≠ '.' := by
  cases exponent with
  | none => cases h
  | some e =>
      obtain ⟨mark, hmark, hchars⟩ := e.mark_cases
      rw [exponentChars, hchars] at h
      obtain rfl := Option.some.inj h
      rcases hmark with rfl | rfl
      · decide
      · decide

theorem exponentChars_ne_point (exponent : Option Exponent)
    (rest : List Char) : exponentChars exponent ≠ '.' :: rest := by
  intro h
  have hpoint : (exponentChars exponent).head? = some '.' := h ▸ rfl
  exact (head?_exponentChars hpoint).2 rfl

theorem head?_fractionChars_append {fraction : Option DigitRun}
    {exponent : Option Exponent} {c : Char}
    (h : (fractionChars fraction ++ exponentChars exponent).head? = some c) :
    c.isDigit = false := by
  cases fraction with
  | none => exact (head?_exponentChars h).1
  | some ds =>
      obtain rfl := Option.some.inj h
      rfl

variable (n : Numeral)

/-- A numeral starts with a minus or a digit. -/
theorem head?_chars {c : Char} (h : n.chars.head? = some c) :
    c = '-' ∨ c.isDigit = true := by
  unfold chars at h
  split at h
  next => exact .inl (Option.some.inj h).symm
  next =>
    obtain ⟨d, ds, hwhole, hd⟩ := n.whole.exists_cons
    unfold unsignedChars at h
    rw [hwhole] at h
    obtain rfl := Option.some.inj h
    exact .inr hd

theorem chars_ne_nil : n.chars ≠ [] := by
  unfold chars
  split
  next => exact List.cons_ne_nil _ _
  next => exact List.append_ne_nil_of_left_ne_nil n.whole.nonempty _

/-- A numeral ends in digits. -/
theorem exists_append_run :
    ∃ (s : List Char) (ds : DigitRun), n.chars = s ++ ds.chars := by
  have hunsigned : ∃ (s : List Char) (ds : DigitRun),
      n.unsignedChars = s ++ ds.chars := by
    unfold unsignedChars
    cases n.exponent with
    | none =>
        rw [exponentChars, List.append_nil]
        cases n.fraction with
        | none => exact ⟨[], n.whole, List.append_nil _⟩
        | some ds =>
            exact ⟨n.whole.chars ++ ['.'], ds, by simp [fractionChars]⟩
    | some e =>
        obtain ⟨mark, -, hchars⟩ := e.mark_cases
        refine ⟨n.whole.chars ++ (fractionChars n.fraction
          ++ mark :: Exponent.signChars e.sign), e.digits, ?_⟩
        simp only [exponentChars, hchars, List.append_assoc,
          List.cons_append]
  obtain ⟨s, ds, h⟩ := hunsigned
  unfold chars
  rw [h]
  split
  next => exact ⟨'-' :: s, ds, rfl⟩
  next => exact ⟨s, ds, rfl⟩

theorem getLast?_chars {c : Char} (h : n.chars.getLast? = some c) :
    c.isDigit = true := by
  obtain ⟨s, ds, hchars⟩ := n.exists_append_run
  rw [hchars, List.getLast?_append,
    List.getLast?_eq_some_getLast ds.nonempty, Option.some_or,
    ← List.getLast?_eq_some_getLast ds.nonempty] at h
  exact ds.digits c (List.mem_of_getLast? h)

-- =================================================== the reader of JSON

theorem scanFraction_chars (fraction : Option DigitRun)
    (exponent : Option Exponent) :
    Literal.scanFraction (fractionChars fraction ++ exponentChars exponent)
      = .ok ((fraction.map DigitRun.chars).getD [],
          exponentChars exponent) := by
  cases fraction with
  | none =>
      unfold fractionChars Literal.scanFraction
      split
      next heq => exact absurd heq (exponentChars_ne_point _ _)
      next => rfl
  | some ds =>
      rw [fractionChars, List.cons_append, Literal.scanFraction,
        Decimal.takeDigits_append ds.digits
          fun c hc => (head?_exponentChars hc).1]
      exact if_neg ds.nonempty

theorem scanExponent_chars (exponent : Option Exponent) :
    Literal.scanExponent (exponentChars exponent)
      = .ok (exponent.map Exponent.value, []) := by
  cases exponent with
  | none => rfl
  | some e =>
      obtain ⟨mark, hmark, hchars⟩ := e.mark_cases
      rw [exponentChars, hchars, Literal.scanExponent, if_pos hmark,
        e.takeSign]
      dsimp only
      rw [Decimal.takeDigits_self e.digits.digits,
        if_neg e.digits.nonempty]
      simp [Exponent.value]

theorem scanUnsigned_chars :
    Literal.scanUnsigned n.negative n.unsignedChars
      = .ok (n.literal, []) := by
  unfold Literal.scanUnsigned unsignedChars
  rw [Decimal.takeDigits_append n.whole.digits
    fun _ => head?_fractionChars_append]
  dsimp only
  rw [if_neg n.whole.nonempty,
    if_neg fun h => h.1 (n.zero_alone h.2), scanFraction_chars]
  dsimp only
  rw [scanExponent_chars]
  rfl

/-- The reader of JSON takes all of a numeral, and its parts as they
are. -/
theorem scan_chars : Literal.scan n.chars = .ok (n.literal, []) := by
  have hscan := n.scanUnsigned_chars
  unfold chars
  split
  next hnegative =>
    rw [hnegative] at hscan
    exact hscan
  next hnegative =>
    rw [Bool.not_eq_true] at hnegative
    rw [hnegative] at hscan
    unfold Literal.scan
    split
    next heq =>
      obtain ⟨c, ds, hwhole, hc⟩ := n.whole.exists_cons
      unfold unsignedChars at heq
      rw [hwhole] at heq
      cases heq
      cases hc
    next => exact hscan

end Numeral

-- ------------------------------------------ nothing else is a number

theorem DigitRun.exists_of_takeDigits {s : List Char}
    (h : (Decimal.takeDigits s).1 ≠ []) :
    ∃ ds : DigitRun, ds.chars = (Decimal.takeDigits s).1
      ∧ s = ds.chars ++ (Decimal.takeDigits s).2 :=
  ⟨⟨_, h, List.all_eq_true.1 List.all_takeWhile⟩, rfl,
    List.takeWhile_append_dropWhile.symm⟩

theorem Exponent.exists_sign (s : List Char) :
    ∃ sign, s = signChars sign ++ (Decimal.takeSign s).2
      ∧ decide (sign = some true) = (Decimal.takeSign s).1 := by
  unfold Decimal.takeSign
  split
  next => exact ⟨some true, rfl, rfl⟩
  next => exact ⟨some false, rfl, rfl⟩
  next => exact ⟨none, rfl, rfl⟩

namespace Literal

theorem exists_fraction {s digits rest : List Char}
    (h : scanFraction s = .ok (digits, rest)) :
    ∃ fraction : Option DigitRun,
      digits = (fraction.map DigitRun.chars).getD []
        ∧ s = Numeral.fractionChars fraction ++ rest := by
  unfold scanFraction at h
  split at h
  next rest' =>
    dsimp only at h
    split at h
    next => cases h
    next hne =>
      obtain ⟨ds, hds, hrest⟩ := DigitRun.exists_of_takeDigits hne
      cases h
      exact ⟨some ds, hds.symm, congrArg _ hrest⟩
  next =>
    cases h
    exact ⟨none, rfl, rfl⟩

theorem exists_exponent {s rest : List Char} {value : Option Int}
    (h : scanExponent s = .ok (value, rest)) :
    ∃ exponent : Option Exponent, value = exponent.map Exponent.value
      ∧ s = Numeral.exponentChars exponent ++ rest := by
  unfold scanExponent at h
  split at h
  next =>
    cases h
    exact ⟨none, rfl, rfl⟩
  next mark rest' =>
    split at h
    next hmark =>
      dsimp only at h
      split at h
      next => cases h
      next hne =>
        obtain ⟨sign, hsign, hminus⟩ := Exponent.exists_sign rest'
        obtain ⟨ds, hds, hrest⟩ := DigitRun.exists_of_takeDigits hne
        cases h
        refine ⟨some ⟨decide (mark = 'E'), sign, ds⟩, ?_, ?_⟩
        · simp [Exponent.value, hds, ← hminus]
        · rw [hrest] at hsign
          rcases hmark with rfl | rfl
          · simp [Numeral.exponentChars, Exponent.chars, ← hsign]
          · simp [Numeral.exponentChars, Exponent.chars, ← hsign]
    next =>
      cases h
      exact ⟨none, rfl, rfl⟩

theorem exists_unsigned {negative : Bool} {s rest : List Char}
    {l : Literal} (h : scanUnsigned negative s = .ok (l, rest)) :
    ∃ n : Numeral, n.negative = negative ∧ n.literal = l
      ∧ s = n.unsignedChars ++ rest := by
  unfold scanUnsigned at h
  dsimp only at h
  split at h
  next => cases h
  next hne =>
    split at h
    next => cases h
    next hzero =>
      obtain ⟨whole, hwhole, hs⟩ := DigitRun.exists_of_takeDigits hne
      rw [← hwhole] at hzero h
      split at h
      next => cases h
      next hf =>
        obtain ⟨fraction, hfraction, hrest⟩ := exists_fraction hf
        split at h
        next => cases h
        next he =>
          obtain ⟨exponent, hexponent, hrest'⟩ := exists_exponent he
          cases h
          refine ⟨⟨negative, whole, fraction, exponent, fun h0 => ?_⟩, rfl,
            ?_, ?_⟩
          · exact not_not.1 fun hlength => hzero ⟨hlength, h0⟩
          · rw [Numeral.literal, hfraction, hexponent]
          · rw [hs, hrest, hrest']
            simp only [Numeral.unsignedChars, List.append_assoc]

/-- What the reader of JSON takes for a number is a numeral. -/
theorem exists_numeral {s rest : List Char} {l : Literal}
    (h : scan s = .ok (l, rest)) :
    ∃ n : Numeral, n.literal = l ∧ s = n.chars ++ rest := by
  unfold scan at h
  split at h
  next =>
    obtain ⟨n, hnegative, hl, hs⟩ := exists_unsigned h
    refine ⟨n, hl, ?_⟩
    rw [Numeral.chars, if_pos hnegative, hs, List.cons_append]
  next =>
    obtain ⟨n, hnegative, hl, hs⟩ := exists_unsigned h
    refine ⟨n, hl, ?_⟩
    rw [Numeral.chars, if_neg (by simp [hnegative]), hs]

/-- The reader of JSON takes a text for a number exactly if it is a
numeral, and then in the parts of the numeral. -/
theorem scan_iff {s : List Char} {l : Literal} :
    scan s = .ok (l, []) ↔ ∃ n : Numeral, n.literal = l ∧ n.chars = s := by
  constructor
  · intro h
    obtain ⟨n, hl, hs⟩ := exists_numeral h
    exact ⟨n, hl, by rw [hs, List.append_nil]⟩
  · rintro ⟨n, rfl, rfl⟩
    exact n.scan_chars

end Literal

-- ---------------------------------------------------- as a JSON text

/-- What starts like a number is read as one. -/
theorem Token.next_of_number {c : Char} (h : c = '-' ∨ c.isDigit = true)
    {rest rest' : List Char} {l : Literal}
    (hscan : Literal.scan (c :: rest) = .ok (l, rest')) :
    Token.next c rest = (.number l.number?, rest') := by
  have hstart : (c = '-' || c.isDigit) = true := by simpa using h
  unfold Token.next
  dsimp only
  split
  case h_11 => rw [if_pos hstart, hscan]
  all_goals cases hstart

theorem inRange_eq_ok {k? : Option Number} {k : Number} :
    inRange k? = .ok k ↔ k? = some k := by
  cases k? with
  | none => simp [inRange]
  | some k' => simp [inRange]

/-- A text that is a numeral is read as its number, if that is within
range. -/
theorem read_numeral (n : Numeral) :
    read (String.ofList n.chars)
      = Value.number <$> inRange n.literal.number? := by
  obtain ⟨c, rest, hchars⟩ := List.exists_cons_of_ne_nil n.chars_ne_nil
  have hstart := n.head?_chars (c := c) (by rw [hchars]; rfl)
  have hspace : isSpace c = false := by
    rcases hstart with rfl | hdigit
    · rfl
    · rw [← Bool.not_eq_true]
      intro hc
      simp only [isSpace, Bool.or_eq_true, decide_eq_true_eq] at hc
      rcases hc with ((rfl | rfl) | rfl) | rfl
      all_goals cases hdigit
  have htokens : Token.scan n.chars = [.number n.literal.number?] := by
    have hscan := n.scan_chars
    rw [hchars] at hscan
    rw [hchars, Token.scan, hspace, Token.next_of_number hstart hscan,
      Token.scan]
    rfl
  unfold read readText Text.scan
  rw [String.toList_ofList, htokens]
  show (Value.number <$> inRange n.literal.number? >>= pure) = _
  rw [bind_pure]

/-- A numeral that is rounded once is read as the double nearest to its
number, be it kept exact or not. -/
theorem exists_read {n : Numeral} (h : n.literal.RoundedOnce) :
    ∃ k, read (String.ofList n.chars) = .ok (.number k)
      ∧ k.toBinary64 = n.nearest := by
  obtain ⟨k, hk, hnearest⟩ := h.exists_number?
  refine ⟨k, ?_, hnearest⟩
  rw [read_numeral]
  exact map_eq_ok.2 ⟨k, inRange_eq_ok.2 hk, rfl⟩

-- ============================================ the reader of other texts

namespace Numeral

variable (n : Numeral)

theorem takeFraction_chars (fraction : Option DigitRun)
    (exponent : Option Exponent) :
    Decimal.takeFraction (fractionChars fraction ++ exponentChars exponent)
      = ((fraction.map DigitRun.chars).getD [], exponentChars exponent) := by
  cases fraction with
  | none =>
      unfold fractionChars Decimal.takeFraction
      split
      next heq => exact absurd heq (exponentChars_ne_point _ _)
      next => rfl
  | some ds =>
      exact Decimal.takeDigits_append ds.digits
        fun c hc => (head?_exponentChars hc).1

theorem exponent?_chars (exponent : Option Exponent) :
    Decimal.exponent? (exponentChars exponent)
      = some ((exponent.map Exponent.value).getD 0) := by
  cases exponent with
  | none => rfl
  | some e =>
      obtain ⟨mark, hmark, hchars⟩ := e.mark_cases
      have hdigits : e.digits.chars.all Char.isDigit = true :=
        List.all_eq_true.2 e.digits.digits
      rw [exponentChars, hchars, Decimal.exponent?, e.takeSign]
      simp [hmark, hdigits, e.digits.nonempty, Exponent.value]

theorem unsigned?_chars :
    Decimal.unsigned? n.negative n.unsignedChars = some n.literal.decimal := by
  unfold Decimal.unsigned? unsignedChars
  rw [Decimal.takeDigits_append n.whole.digits
    fun _ => head?_fractionChars_append]
  dsimp only
  rw [takeFraction_chars]
  dsimp only
  rw [if_neg fun h => n.whole.nonempty h.1, exponent?_chars]
  rfl

theorem takeSign_chars :
    Decimal.takeSign n.chars = (n.negative, n.unsignedChars) := by
  unfold chars
  split
  next hnegative =>
    rw [hnegative]
    rfl
  next hnegative =>
    rw [Bool.not_eq_true] at hnegative
    rw [hnegative]
    exact n.whole.takeSign _

/-- What starts with a digit is no word. -/
theorem fold_unsignedChars_ne (word : List Char) {c : Char}
    (hword : word.head? = some c) (hc : c.isDigit = false) :
    Text.fold n.unsignedChars ≠ word := by
  obtain ⟨d, ds, hwhole, hd⟩ := n.whole.exists_cons
  rintro rfl
  unfold unsignedChars Text.fold at hword
  rw [hwhole] at hword
  simp only [List.cons_append, List.map_cons, List.head?_cons,
    Text.toLower_of_isDigit hd] at hword
  obtain rfl := Option.some.inj hword
  rw [hd] at hc
  cases hc

/-- As a text, a numeral spells the double nearest to its number. -/
theorem numeral?_chars : Binary64.numeral? n.chars = some n.nearest := by
  have hinf := n.fold_unsignedChars_ne "inf".toList
    (c := 'i') rfl rfl
  have hinfinity := n.fold_unsignedChars_ne "infinity".toList
    (c := 'i') rfl rfl
  have hnan := n.fold_unsignedChars_ne "nan".toList
    (c := 'n') rfl rfl
  unfold Binary64.numeral?
  rw [n.takeSign_chars]
  dsimp only
  rw [if_neg (not_or.2 ⟨hinf, hinfinity⟩), if_neg hnan, n.unsigned?_chars]
  rfl

end Numeral

end TimedOverlay.Json
