/-
The canonical text of a number.

A number is written as its nearest whole number of thousandths, a half
going to the even neighbour (`NearestEven`). What is written is a plain
numeral (`Json.Numeral.Plain`): it has no exponent, at most three places,
no zero at its end, and no sign in front of zero. For each number of
thousandths there is one such numeral (`Json.Numeral.ofThousandths`), and
it stands for just that number.

Rounding keeps the order of numbers, so the texts of finite numbers are in
their order, and they are the same only for numbers that are rounded to
the same thousandth (`Window.gate_canonical`).
-/
import Mathlib.Algebra.Order.Field.Power
import Mathlib.Tactic.FieldSimp
import Mathlib.Tactic.Ring
import TimedOverlay.Instruction.Filter
import TimedOverlay.Proofs.Binary64.Value
import TimedOverlay.Proofs.Decimal.Digits
import TimedOverlay.Proofs.Json.Numeral

namespace TimedOverlay

-- ========================================================== the nearest

/-- A whole number that is as near to `q` as any, and even if there are
two of them. -/
structure NearestEven (q : ℚ) (n : ℤ) : Prop where
  near : |q - n| ≤ 1 / 2
  even : |q - n| = 1 / 2 → Even n

namespace NearestEven

variable {q r : ℚ} {m n : ℤ}

theorem neg (h : NearestEven q n) : NearestEven (-q) (-n) := by
  have habs : |-q - ((-n : ℤ) : ℚ)| = |q - n| := by
    rw [Int.cast_neg, neg_sub_neg, abs_sub_comm]
  refine ⟨?_, fun htie => ?_⟩
  · rw [habs]
    exact h.near
  · rw [habs] at htie
    exact (h.even htie).neg

/-- Rounding keeps the order. -/
theorem mono (hm : NearestEven q m) (hn : NearestEven r n) (hle : q ≤ r) :
    m ≤ n := by
  by_contra hlt
  obtain ⟨hlow, -⟩ := abs_le.1 hm.near
  obtain ⟨-, hhigh⟩ := abs_le.1 hn.near
  have hnext : ((n + 1 : ℤ) : ℚ) ≤ m := Int.cast_le.2 (by omega)
  rw [Int.cast_add, Int.cast_one] at hnext
  -- Both are one half away, on either side of one number, so both are even.
  have hmtie : |q - m| = 1 / 2 := by
    rw [abs_sub_comm, abs_of_nonneg (by linarith)]
    linarith
  have hntie : |r - n| = 1 / 2 := by
    rw [abs_of_nonneg (by linarith)]
    linarith
  have hone : m = n + 1 := by
    have hcast : (m : ℚ) = ((n + 1 : ℤ) : ℚ) := by
      rw [Int.cast_add, Int.cast_one]
      linarith
    exact Int.cast_injective hcast
  have hmeven := hm.even hmtie
  have hneven := hn.even hntie
  rw [hone, Int.even_add_one] at hmeven
  exact hmeven hneven

/-- There is only one. -/
theorem unique (hm : NearestEven q m) (hn : NearestEven q n) : m = n :=
  le_antisymm (hm.mono hn le_rfl) (hn.mono hm le_rfl)

end NearestEven

/-- A tie is rounded to the even side. -/
theorem even_roundHalfEven {num den : Nat}
    (h : 2 * (num % den) = den) : roundHalfEven num den % 2 = 0 := by
  unfold roundHalfEven
  dsimp only
  rw [if_neg (by omega), if_neg (by omega)]
  split
  next heven => exact heven
  next hodd => omega

/-- What a quotient is rounded to is nearest to it. -/
theorem nearestEven_roundHalfEven (num : Nat) {den : Nat} (h : 0 < den) :
    NearestEven ((num : ℚ) / den) (roundHalfEven num den : ℕ) := by
  have hden : (0 : ℚ) < den := Nat.cast_pos.2 h
  -- The part of one that the quotient has beyond its whole part.
  obtain ⟨f, hf⟩ : ∃ f : ℚ, f * den = (num % den : ℕ) :=
    ⟨_, div_mul_cancel₀ _ hden.ne'⟩
  have hquotient : (num : ℚ) / den = (num / den : ℕ) + f := by
    rw [div_eq_iff hden.ne', add_mul, hf]
    exact_mod_cast (Nat.div_add_mod' num den).symm
  have heven (htie : f = 1 / 2) : Even ((roundHalfEven num den : ℕ) : ℤ) := by
    have hmod : (2 : ℚ) * (num % den : ℕ) = den := by
      rw [← hf, htie]
      ring
    have hmod' : 2 * (num % den) = den := by exact_mod_cast hmod
    exact Int.even_iff.2 (by have := even_roundHalfEven hmod'; omega)
  rw [hquotient]
  rcases roundHalfEven_cases num den with ⟨hround, hhalf⟩ | ⟨hround, hhalf⟩
  · have hlow : 0 ≤ f := by
      refine le_of_mul_le_mul_right ?_ hden
      rw [zero_mul, hf]
      exact Nat.cast_nonneg _
    have hhigh : f ≤ 1 / 2 := by
      have hcast : (2 : ℚ) * (num % den : ℕ) ≤ den := by exact_mod_cast hhalf
      refine le_of_mul_le_mul_right ?_ hden
      linarith
    have habs : |((num / den : ℕ) : ℚ) + f
        - ((roundHalfEven num den : ℕ) : ℤ)| = f := by
      rw [hround, Int.cast_natCast, add_sub_cancel_left, abs_of_nonneg hlow]
    exact ⟨habs.trans_le hhigh, fun htie => heven (habs.symm.trans htie)⟩
  · have hlow : 1 / 2 ≤ f := by
      have hcast : (den : ℚ) ≤ 2 * (num % den : ℕ) := by exact_mod_cast hhalf
      refine le_of_mul_le_mul_right ?_ hden
      linarith
    have hhigh : f ≤ 1 := by
      refine le_of_mul_le_mul_right ?_ hden
      rw [one_mul, hf]
      exact_mod_cast (Nat.mod_lt num h).le
    have habs : |((num / den : ℕ) : ℚ) + f
        - ((roundHalfEven num den : ℕ) : ℤ)| = 1 - f := by
      rw [hround, Int.cast_natCast, Nat.cast_add, Nat.cast_one,
        add_sub_add_left_eq_sub, abs_sub_comm, abs_of_nonneg (by linarith)]
    refine ⟨habs.trans_le (by linarith), fun htie => heven ?_⟩
    linarith [habs.symm.trans htie]

-- =============================================================== numerals

/-- The rational number that a decimal stands for. -/
def Decimal.value (d : Decimal) : ℚ :=
  (if d.negative then -1 else 1) * (d.coefficient * 10 ^ d.exponent)

namespace Json.Numeral

open Binary64 (keptDigits)

/-- The rational number that is spelled. -/
def value (n : Numeral) : ℚ := n.literal.decimal.value

/-- Plain numerals: digits, and behind a point at most three more, the last
of them no zero; a minus only if it changes the number. That there is no
needless zero in front goes for every numeral. -/
structure Plain (n : Numeral) : Prop where
  no_exponent : n.exponent = none
  places : ∀ ds, n.fraction = some ds →
    ds.chars.length ≤ 3 ∧ ds.chars.getLast? ≠ some '0'
  no_negative_zero : n.negative = true → n.value ≠ 0

/-- What a numeral stands for can be told from its characters. -/
theorem value_eq_of_chars_eq {d e : Numeral} (h : d.chars = e.chars) :
    d.value = e.value := by
  have hscan := d.scan_chars
  rw [h, e.scan_chars] at hscan
  have hliteral : e.literal = d.literal :=
    (Prod.mk.inj (Except.ok.inj hscan)).1
  unfold value
  rw [hliteral]

/-- The digits that are shown behind the point, if there are any. -/
def fractionOf (n : Nat) : Option DigitRun :=
  if h : keptDigits n = [] then none
  else some ⟨keptDigits n, h, Binary64.digits_keptDigits n⟩

/-- The plain numeral of a number of thousandths. -/
def ofThousandths (n : ℤ) : Numeral where
  negative := n < 0
  whole := ⟨Nat.toDigits 10 (n.natAbs / 1000), Nat.toDigits_ne_nil,
    Decimal.digits_toDigits _⟩
  fraction := fractionOf n.natAbs
  exponent := none
  zero_alone := Decimal.zero_alone_toDigits

theorem fractionChars_fractionOf (n : Nat) :
    fractionChars (fractionOf n) = Binary64.fractionDigits n := by
  rw [Binary64.fractionDigits_eq]
  unfold fractionOf
  split
  next => rfl
  next => rfl

theorem getD_fractionOf (n : Nat) :
    ((fractionOf n).map DigitRun.chars).getD [] = keptDigits n := by
  unfold fractionOf
  split
  next h => exact h.symm
  next => rfl

variable (n : ℤ)

/-- The canonical text is that numeral. -/
theorem ofList_chars_ofThousandths :
    String.ofList (ofThousandths n).chars = Binary64.thousandthsText n := by
  have hunsigned : (ofThousandths n).unsignedChars
      = Nat.toDigits 10 (n.natAbs / 1000)
        ++ Binary64.fractionDigits n.natAbs := by
    show _ ++ (fractionChars (fractionOf n.natAbs) ++ []) = _
    rw [List.append_nil, fractionChars_fractionOf]
    rfl
  have hnegative : (ofThousandths n).negative = decide (n < 0) := rfl
  unfold Binary64.thousandthsText chars
  rw [hunsigned, hnegative]
  by_cases h : n < 0
  · simp [h]
  · simp [h]

theorem decimal_ofThousandths :
    (ofThousandths n).literal.decimal
      = ⟨decide (n < 0),
        Decimal.digitsValue (Nat.toDigits 10 (n.natAbs / 1000)
          ++ keptDigits n.natAbs),
        -((keptDigits n.natAbs).length : ℤ)⟩ := by
  show Decimal.ofDigits _ _
    (((fractionOf n.natAbs).map DigitRun.chars).getD []) 0 = _
  rw [getD_fractionOf]
  unfold Decimal.ofDigits
  rw [Int.zero_sub]
  rfl

/-- It stands for as many thousandths. -/
theorem value_ofThousandths : (ofThousandths n).value = n / 1000 := by
  have hlength := Binary64.length_keptDigits_le n.natAbs
  have hshown := Binary64.digitsValue_shown n.natAbs
  unfold value Decimal.value
  rw [decimal_ofThousandths]
  dsimp only
  generalize Decimal.digitsValue _ = c at hshown ⊢
  generalize (keptDigits n.natAbs).length = k at hlength hshown ⊢
  have hpow : (10 : ℚ) ^ k * 10 ^ (3 - k) = 1000 := by
    rw [← pow_add, Nat.add_sub_cancel' hlength]
    norm_num
  have hsize : (c : ℚ) * 10 ^ (3 - k) = n.natAbs := by exact_mod_cast hshown
  have hplaces : (c : ℚ) * 10 ^ (-(k : ℤ)) = n.natAbs / 1000 := by
    rw [zpow_neg, zpow_natCast, ← hsize, ← hpow]
    field_simp
  rw [hplaces, Nat.cast_natAbs]
  by_cases h : n < 0
  · rw [if_pos (decide_eq_true h), abs_of_neg h, Int.cast_neg]
    ring
  · rw [if_neg (by simpa using h), abs_of_nonneg (Int.not_lt.1 h), one_mul]

theorem plain_ofThousandths : (ofThousandths n).Plain := by
  refine ⟨rfl, fun ds hds => ?_, fun hnegative hzero => ?_⟩
  · have hfraction : fractionOf n.natAbs = some ds := hds
    unfold fractionOf at hfraction
    split at hfraction
    next => cases hfraction
    next =>
      obtain rfl := Option.some.inj hfraction
      exact ⟨Binary64.length_keptDigits_le _,
        Binary64.getLast?_keptDigits_ne _⟩
  · have hlt : n < 0 := of_decide_eq_true hnegative
    rw [value_ofThousandths, div_eq_zero_iff] at hzero
    rcases hzero with hzero | hzero
    · have : n = 0 := by exact_mod_cast hzero
      omega
    · norm_num at hzero

end Json.Numeral

-- ================================================================= texts

namespace Binary64

open Magnitude (unitsPerOne unitsPerOne_pos)

/-- The number of thousandths that is written is nearest to the exact
one. -/
theorem exists_thousandths {x : Binary64} {a : ℚ} (hx : x.value? = some a) :
    ∃ n : ℤ, NearestEven (1000 * a) n ∧ x.thousandths = thousandthsText n := by
  obtain ⟨s, m, rfl, rfl⟩ := exists_of_value? hx
  have hsize : NearestEven (1000 * ((m.units : ℚ) / unitsPerOne))
      (inPlaces 3 m : ℕ) := by
    have hnear := nearestEven_roundHalfEven (m.units * 10 ^ 3) unitsPerOne_pos
    have hquotient : ((m.units * 10 ^ 3 : ℕ) : ℚ) / unitsPerOne
        = 1000 * ((m.units : ℚ) / unitsPerOne) := by
      push_cast
      ring
    rwa [hquotient] at hnear
  refine ⟨thousandthsOf s m, ?_, rfl⟩
  cases s with
  | false => exact hsize
  | true =>
      have hopposite : 1000 * ((signedUnits true m : ℚ) / unitsPerOne)
          = -(1000 * ((m.units : ℚ) / unitsPerOne)) := by
        rw [signedUnits_true]
        push_cast
        ring
      rw [hopposite]
      exact hsize.neg

end Binary64

/-- Finite times are written as plain numerals, each of which stands for
the time rounded to a thousandth, a half going to the even side. So the
ends of a window are written in their order, and alike exactly if they are
rounded to the same thousandth. -/
theorem Window.gate_canonical (w : Window) {a b : ℚ}
    (ha : w.start.value? = some a) (hb : w.stop.value? = some b) :
    ∃ (d e : Json.Numeral) (m n : ℤ), d.Plain ∧ e.Plain
      ∧ w.start.thousandths = String.ofList d.chars
      ∧ w.stop.thousandths = String.ofList e.chars
      ∧ w.gate = "between(t," ++ String.ofList d.chars ++ ","
        ++ String.ofList e.chars ++ ")"
      ∧ NearestEven (1000 * a) m ∧ d.value = m / 1000
      ∧ NearestEven (1000 * b) n ∧ e.value = n / 1000
      ∧ (a ≤ b → d.value ≤ e.value)
      ∧ (w.start.thousandths = w.stop.thousandths ↔ m = n) := by
  obtain ⟨m, hm, hstart⟩ := Binary64.exists_thousandths ha
  obtain ⟨n, hn, hstop⟩ := Binary64.exists_thousandths hb
  have hstart' := hstart.trans (Json.Numeral.ofList_chars_ofThousandths m).symm
  have hstop' := hstop.trans (Json.Numeral.ofList_chars_ofThousandths n).symm
  have hd := Json.Numeral.value_ofThousandths m
  have he := Json.Numeral.value_ofThousandths n
  refine ⟨.ofThousandths m, .ofThousandths n, m, n,
    Json.Numeral.plain_ofThousandths m, Json.Numeral.plain_ofThousandths n,
    hstart', hstop', ?_, hm, hd, hn, he, fun hle => ?_, fun halike => ?_,
    fun hsame => ?_⟩
  · rw [← hstart', ← hstop']
    rfl
  · have hcast : (m : ℚ) ≤ n := Int.cast_le.2 (hm.mono hn (by linarith))
    rw [hd, he]
    linarith
  · rw [hstart', hstop', String.ofList_inj] at halike
    have hvalue := Json.Numeral.value_eq_of_chars_eq halike
    rw [hd, he] at hvalue
    have hcast : (m : ℚ) = n := by linarith
    exact_mod_cast hcast
  · rw [hstart, hstop, hsame]

/-- A sixteenth lies in the middle between two thousandths, and is written
as the even one. -/
theorem Window.gate_canonical_sixteenth :
    (1 / 16 : Binary64).value? = some (1 / 16)
      ∧ (5 : Binary64).value? = some 5
      ∧ ∃ d : Json.Numeral, d.Plain
        ∧ (1 / 16 : Binary64).thousandths = String.ofList d.chars
        ∧ d.value = 62 / 1000 := by
  have ha : (1 / 16 : Binary64).value? = some (1 / 16) := by decide +kernel
  have hb : (5 : Binary64).value? = some 5 :=
    Binary64.value?_ofNat (by decide)
  have htie : NearestEven (1000 * (1 / 16)) 62 :=
    ⟨by norm_num [abs_le], fun _ => by decide⟩
  obtain ⟨d, -, m, -, hd, -, htext, -, -, hm, hvalue, -⟩ :=
    gate_canonical ⟨1 / 16, 5⟩ ha hb
  obtain rfl := hm.unique htie
  exact ⟨ha, hb, d, hd, htext, hvalue⟩

end TimedOverlay
