/-
What decimal digits stand for.

Digits that are put behind others raise these by one power of ten each
(`digitsValue_append`), so zeros behind a number multiply it, and zeros in
front of it are nothing. The digits of a number stand for it again and
start with a zero only if there is nothing else (`zero_alone_toDigits`).
What some places behind the point stand for is a fraction, and it is read
as the double nearest to that (`toBinary64_of_places`).

Of the last three digits of a number of thousandths those are shown that
remain without the zeros at the end (`keptDigits`). What they stand for is
what was there before, with the power of ten of the zeros taken away
(`digitsValue_keptDigits`). What is shown is what trimming leaves of the
text with all three places, but for the sign of a zero
(`thousandths_eq_trimmed`).
-/
import Mathlib.Data.List.DropRight
import TimedOverlay.Decimal.Places
import TimedOverlay.Proofs.Binary64.Rounding
import TimedOverlay.Proofs.Text.Classes

namespace TimedOverlay

open Text (Digits)

-- =============================================================== values

namespace Decimal

theorem digitsValue_eq (ds : List Char) :
    digitsValue ds = Nat.ofDigitChars 10 ds 0 :=
  Nat.ofDigitChars_eq_foldl.symm

theorem digitsValue_append (a b : List Char) :
    digitsValue (a ++ b) = 10 ^ b.length * digitsValue a + digitsValue b := by
  rw [digitsValue_eq, digitsValue_eq, digitsValue_eq,
    Nat.ofDigitChars_append, Nat.ofDigitChars_eq_ofDigitChars_zero]

@[simp] theorem digitsValue_toDigits (n : Nat) :
    digitsValue (Nat.toDigits 10 n) = n := by
  rw [digitsValue_eq, Nat.ofDigitChars_ten_toDigits]

@[simp] theorem digitsValue_zeros (n : Nat) :
    digitsValue (List.replicate n '0') = 0 := by
  rw [digitsValue_eq, Nat.ofDigitChars_replicate_zero, Nat.mul_zero]

-- ======================================================= leading zeros

theorem digits_toDigits (n : Nat) : Digits (Nat.toDigits 10 n) :=
  fun _ hc => Nat.isDigit_of_mem_toDigits (by decide) (by decide) hc

/-- A number above zero does not start with a zero. -/
theorem head?_toDigits_ne {n : Nat} (h : n ≠ 0) :
    (Nat.toDigits 10 n).head? ≠ some '0' := by
  induction n using Nat.strongRecOn with
  | ind n ih =>
      by_cases hsmall : n < 10
      · have hdigit : ∀ k < 10, k ≠ 0 → Nat.digitChar k ≠ '0' := by decide
        rw [Nat.toDigits_of_lt_base hsmall]
        intro hhead
        exact hdigit n hsmall h (Option.some.inj hhead)
      · rw [Nat.toDigits_of_base_le (by decide) (by omega),
          List.head?_append_of_ne_nil _ Nat.toDigits_ne_nil]
        exact ih (n / 10) (by omega) (by omega)

/-- A zero in front stands alone. -/
theorem zero_alone_toDigits {n : Nat}
    (h : (Nat.toDigits 10 n).head? = some '0') :
    (Nat.toDigits 10 n).length = 1 := by
  by_cases h0 : n = 0
  · subst h0
    rfl
  · exact absurd h (head?_toDigits_ne h0)

-- ============================================================== places

/-- The double nearest to a decimal with places behind the point. -/
theorem toBinary64_of_places (negative : Bool) {c k : Nat}
    (hk : k ≤ 324) (hc : c < 10 ^ (309 + k)) :
    toBinary64 ⟨negative, c, -(k : ℤ)⟩
      = .ofUnits negative (c * Magnitude.unitsPerOne) (10 ^ k) := by
  have hwidth : width c ≤ 309 + k :=
    (Nat.length_toDigits_le_iff (by decide) (by omega)).2 hc
  have hpos : 0 < width c := Nat.length_toDigits_pos
  unfold toBinary64
  dsimp only
  by_cases h0 : c = 0
  · have hpow : 0 < 10 ^ k := Nat.pow_pos (by decide)
    have hunits : Magnitude.zero.units * 10 ^ k = 0 := Nat.zero_mul _
    have hzero := Binary64.ofUnits_mul negative Magnitude.zero hpow
    rw [hunits] at hzero
    rw [if_pos h0, h0, Nat.zero_mul, hzero]
  · rw [if_neg h0, if_neg (by omega), if_neg (by omega)]
    by_cases hwhole : k = 0
    · subst hwhole
      simp
    · rw [if_neg (by omega), Int.neg_neg, Int.toNat_natCast]

end Decimal

-- ======================================================== last digits

namespace Binary64

open Decimal

theorem length_lastDigits (n : Nat) {places : Nat} (h : 0 < places) :
    (lastDigits places n).length = places := by
  have hlength : (Nat.toDigits 10 (n % 10 ^ places)).length ≤ places :=
    (Nat.length_toDigits_le_iff (by decide) h).2
      (Nat.mod_lt _ (Nat.pow_pos (by decide)))
  unfold lastDigits
  rw [List.length_append, List.length_replicate]
  omega

theorem digits_lastDigits (places n : Nat) : Digits (lastDigits places n) := by
  intro c hc
  rw [lastDigits, List.mem_append] at hc
  rcases hc with hc | hc
  · rw [(List.mem_replicate.1 hc).2]
    rfl
  · exact digits_toDigits _ c hc

theorem digitsValue_lastDigits (places n : Nat) :
    digitsValue (lastDigits places n) = n % 10 ^ places := by
  unfold lastDigits
  rw [digitsValue_append, digitsValue_zeros, digitsValue_toDigits,
    Nat.mul_zero, Nat.zero_add]

-- ======================================================== kept digits

/-- The last three digits of a number, without the zeros at their end. -/
def keptDigits (n : Nat) : List Char :=
  (lastDigits 3 n).rdropWhile (· = '0')

theorem fractionDigits_eq (n : Nat) :
    fractionDigits n
      = if keptDigits n = [] then [] else '.' :: keptDigits n := by
  have hkept : ((lastDigits 3 n).reverse.dropWhile (· = '0')).reverse
      = keptDigits n := rfl
  unfold fractionDigits
  rw [hkept]
  cases keptDigits n with
  | nil => rfl
  | cons c ds => rfl

variable (n : Nat)

theorem exists_zeros :
    ∃ k, lastDigits 3 n = keptDigits n ++ List.replicate k '0' := by
  refine ⟨((lastDigits 3 n).rtakeWhile (· = '0')).length, ?_⟩
  have hzeros : (lastDigits 3 n).rtakeWhile (· = '0')
      = List.replicate ((lastDigits 3 n).rtakeWhile (· = '0')).length '0' :=
    List.eq_replicate_of_mem fun c hc => by
      simpa using List.mem_rtakeWhile_imp hc
  rw [← hzeros]
  exact List.rdropWhile_append_rtakeWhile.symm

theorem digits_keptDigits : Digits (keptDigits n) :=
  fun c hc => digits_lastDigits 3 n c ((List.rdropWhile_prefix _ _).mem hc)

theorem length_keptDigits_le : (keptDigits n).length ≤ 3 := by
  have hlength : (lastDigits 3 n).length = 3 := length_lastDigits n (by decide)
  rw [← hlength]
  exact (List.rdropWhile_prefix _ _).length_le

/-- The last of the digits that are kept is no zero. -/
theorem getLast?_keptDigits_ne : (keptDigits n).getLast? ≠ some '0' := by
  intro hlast
  by_cases h : keptDigits n = []
  · rw [h] at hlast
    cases hlast
  · have hnot := List.rdropWhile_last_not _ _ h
    rw [List.getLast?_eq_some_getLast h] at hlast
    exact hnot (decide_eq_true (Option.some.inj hlast))

variable {n} in
/-- Nothing is kept of three zeros. -/
theorem keptDigits_eq_nil (h : n % 1000 = 0) : keptDigits n = [] := by
  unfold keptDigits lastDigits
  rw [show n % 10 ^ 3 = 0 from h]
  decide

/-- What is kept lacks the power of ten of the zeros. -/
theorem digitsValue_keptDigits :
    10 ^ (3 - (keptDigits n).length) * digitsValue (keptDigits n)
      = n % 1000 := by
  obtain ⟨k, hk⟩ := exists_zeros n
  have hlength : (lastDigits 3 n).length = 3 := length_lastDigits n (by decide)
  have hvalue := digitsValue_lastDigits 3 n
  rw [hk, List.length_append, List.length_replicate] at hlength
  rw [hk, digitsValue_append, List.length_replicate, digitsValue_zeros,
    Nat.add_zero] at hvalue
  rw [← hlength, Nat.add_sub_cancel_left, hvalue]

/-- The whole part and the digits that are kept behind it, read as one
number, lack that power of ten, too. -/
theorem digitsValue_shown :
    digitsValue (Nat.toDigits 10 (n / 1000) ++ keptDigits n)
        * 10 ^ (3 - (keptDigits n).length) = n := by
  have hlength := length_keptDigits_le n
  have hpow : 10 ^ (keptDigits n).length * 10 ^ (3 - (keptDigits n).length)
      = 1000 := by
    rw [← Nat.pow_add, Nat.add_sub_cancel' hlength]
  rw [digitsValue_append, digitsValue_toDigits, Nat.add_mul,
    Nat.mul_right_comm, hpow, Nat.mul_comm (digitsValue _),
    digitsValue_keptDigits, Nat.div_add_mod]

-- ======================================================= trimmed texts

/-- Characters without the zeros, and then without the points, at their
end. -/
def trimmed (s : List Char) : List Char :=
  (s.rdropWhile (· = '0')).rdropWhile (· = '.')

theorem rdropWhile_append_replicate {p : Char → Bool} {c : Char} (h : p c)
    (s : List Char) (k : Nat) :
    (s ++ List.replicate k c).rdropWhile p = s.rdropWhile p := by
  induction k with
  | zero => rw [List.replicate_zero, List.append_nil]
  | succ k ih =>
      rw [List.replicate_succ', ← List.append_assoc,
        List.rdropWhile_concat_pos _ _ _ h, ih]

/-- Trimming leaves just those places that are shown. -/
theorem trimmed_places {front : List Char} (hfront : '.' ∉ front) :
    trimmed (front ++ '.' :: lastDigits 3 n)
      = front ++ fractionDigits n := by
  obtain ⟨k, hk⟩ := exists_zeros n
  unfold trimmed
  rw [hk, ← List.cons_append, ← List.append_assoc,
    rdropWhile_append_replicate (by rfl), fractionDigits_eq]
  rcases List.eq_nil_or_concat' (keptDigits n) with hnone | ⟨ds, d, hkept⟩
  · rw [if_pos hnone, hnone, List.rdropWhile_concat_neg _ _ _ (by decide),
      List.rdropWhile_concat_pos _ _ _ (by rfl), List.append_nil,
      List.rdropWhile_eq_self_iff]
    intro hne hpoint
    exact hfront (of_decide_eq_true hpoint ▸ List.getLast_mem hne)
  · have hlast : d ≠ '0' := fun h =>
      getLast?_keptDigits_ne n (by rw [hkept, h, List.getLast?_concat])
    have hdigit : d ≠ '.' := by
      rintro rfl
      have hmem : '.' ∈ keptDigits n := by
        rw [hkept]
        exact List.mem_append_right _ List.mem_cons_self
      exact absurd (digits_keptDigits n _ hmem) (by decide)
    have hshown : front ++ '.' :: (ds ++ [d]) = front ++ '.' :: ds ++ [d] := by
      rw [List.append_assoc, List.cons_append]
    rw [hkept, if_neg (List.concat_ne_nil _ _), hshown,
      List.rdropWhile_concat_neg _ _ _ (by simpa using hlast),
      List.rdropWhile_concat_neg _ _ _ (by simpa using hdigit)]

/-- Only zero is shown as one digit that is a zero. -/
theorem shown_eq_zero_iff :
    Nat.toDigits 10 (n / 1000) ++ fractionDigits n = ['0'] ↔ n = 0 := by
  constructor
  · intro hshown
    have hnone : keptDigits n = [] := by
      by_contra hkept
      rw [fractionDigits_eq, if_neg hkept] at hshown
      have hpoint : '.' ∈ ['0'] := by
        rw [← hshown]
        exact List.mem_append_right _ List.mem_cons_self
      exact absurd hpoint (by decide)
    have hvalue := digitsValue_shown n
    rw [fractionDigits_eq, if_pos hnone, List.append_nil] at hshown
    rw [hnone, List.append_nil, hshown] at hvalue
    exact hvalue.symm
  · rintro rfl
    rfl

/-- Three places of a finite number, trimmed. -/
theorem trimmed_fixed (s : Bool) (m : Magnitude) :
    trimmed ((finite s m).fixed 3).toList
      = (if s then ['-'] else [])
        ++ (Nat.toDigits 10 (inPlaces 3 m / 1000)
          ++ fractionDigits (inPlaces 3 m)) := by
  have hplain : '.' ∉ (if s then ['-'] else [])
      ++ Nat.toDigits 10 (inPlaces 3 m / 1000) := by
    intro hpoint
    rcases List.mem_append.1 hpoint with hsign | hdigit
    · cases s with
      | false => cases hsign
      | true => exact absurd hsign (by decide)
    · exact absurd (digits_toDigits _ _ hdigit) (by decide)
  rw [fixed, String.toList_ofList, ← List.append_assoc]
  exact trimmed_places (inPlaces 3 m) hplain

/-- A finite number is printed with three places, from which the zeros
and the point at the end are dropped, and then the sign of a zero; any
other number is printed as a zero. -/
theorem thousandths_eq_trimmed (x : Binary64) :
    x.thousandths
      = if x.isFinite then
          let shown := trimmed (x.fixed 3).toList
          if shown = ['-', '0'] then "0" else String.ofList shown
        else "0" := by
  cases x with
  | nan => rfl
  | infinite s => rfl
  | finite s m =>
      have hfinite : (finite s m).isFinite = true := rfl
      rw [if_pos hfinite]
      dsimp only
      rw [trimmed_fixed, thousandths, thousandthsText, thousandthsOf,
        List.append_assoc]
      generalize inPlaces 3 m = n
      cases s with
      | false =>
          have hplain : ¬ Nat.toDigits 10 (n / 1000) ++ fractionDigits n
              = ['-', '0'] := by
            intro hshown
            have hhead := congrArg List.head? hshown
            rw [List.head?_append_of_ne_nil _ Nat.toDigits_ne_nil] at hhead
            exact absurd
              (digits_toDigits _ _ (List.mem_of_head? hhead)) (by decide)
          have hpos : ¬ (n : Int) < 0 := by omega
          rw [if_neg Bool.false_ne_true, if_neg Bool.false_ne_true,
            List.nil_append, if_neg hplain, if_neg hpos, Int.natAbs_natCast]
          rfl
      | true =>
          rw [if_pos rfl, if_pos rfl, List.cons_append, List.nil_append,
            Int.natAbs_neg, Int.natAbs_natCast]
          by_cases h0 : n = 0
          · subst h0
            rfl
          · have hneg : -(n : Int) < 0 := by omega
            have hshown : ¬ '-' :: (Nat.toDigits 10 (n / 1000)
                ++ fractionDigits n) = ['-', '0'] := fun h =>
              h0 ((shown_eq_zero_iff n).1 (List.cons.inj h).2)
            rw [if_neg hshown, if_pos hneg]
            rfl

end Binary64

end TimedOverlay
