/-
When a number is read as the double nearest to it.

A literal that is no whole number of 64 bits is read in two steps that
round, so it is a matter of the literal whether the double it is read as is
the nearest one (`RoundedOnce`). It is if the first step is exact: if the
digits make a number of 53 bits, and the power of ten is one of those that
are doubles themselves, the 22nd and those before it
(`roundedOnce_of_exact`). A product or a quotient of two doubles is rounded
only once. It also is if there is no second step, as with a whole number of
64 bits behind a minus (`roundedOnce_of_whole`). Where the digits are more
than a double holds, it need not be.
-/
import TimedOverlay.Json.Literal
import TimedOverlay.Proofs.Binary64.Grid
import TimedOverlay.Proofs.Binary64.Overflow
import TimedOverlay.Proofs.Decimal.Digits

namespace TimedOverlay

open Decimal (digitsValue digitValue digitsValue_append width)
open Magnitude (unitsPerOne unitsPerOne_pos whole_units)

-- ============================================================== decimals

/-- The double nearest to a decimal without places behind the point. -/
theorem Decimal.toBinary64_of_tens (negative : Bool) {c k : Nat}
    (hk : k ≤ 309) (hc : c < 10 ^ (309 - k)) :
    toBinary64 ⟨negative, c, k⟩
      = .ofUnits negative (c * 10 ^ k * unitsPerOne) 1 := by
  have hwidth : c ≠ 0 → width c ≤ 309 - k := fun h0 =>
    (Nat.length_toDigits_le_iff (by decide) (by
      by_contra hzero
      rw [Nat.not_lt, Nat.le_zero] at hzero
      rw [hzero] at hc
      omega)).2 hc
  have hpos : 0 < width c := Nat.length_toDigits_pos
  unfold toBinary64
  dsimp only
  by_cases h0 : c = 0
  · have hzero := Binary64.ofUnits_mul negative Magnitude.zero Nat.one_pos
    rw [if_pos h0, h0, Nat.zero_mul, Nat.zero_mul, ← hzero]
    rfl
  · have hwidth := hwidth h0
    rw [if_neg h0, if_neg (by omega), if_neg (by omega), if_pos (by omega),
      Int.toNat_natCast]

/-- A whole number of 64 bits is its own decimal. -/
theorem Decimal.toBinary64_of_whole (negative : Bool) {c : Nat}
    (hc : c < 2 ^ 64) :
    toBinary64 ⟨negative, c, 0⟩ = .ofUnits negative (c * unitsPerOne) 1 := by
  have hshort : c < 10 ^ (309 - 0) := Nat.lt_trans hc (by decide +kernel)
  have htens := toBinary64_of_tens negative (Nat.zero_le _) hshort
  rwa [Nat.pow_zero, Nat.mul_one] at htens

theorem Binary64.neg_ofUnits (s : Bool) (num den : Nat) :
    -ofUnits s num den = ofUnits (!s) num den := by
  show neg (ofUnits s num den) = _
  unfold ofUnits
  cases Magnitude.nearest? num den with
  | none => rfl
  | some m => rfl

namespace Json.Literal

-- ================================================================ digits

/-- Digits fit into 64 bits together if their value does. -/
theorem takeFitting_eq {n : Nat} {ds : List Char}
    (h : 10 ^ ds.length * n + digitsValue ds < 2 ^ 64) :
    takeFitting n ds = (10 ^ ds.length * n + digitsValue ds, []) := by
  induction ds generalizing n with
  | nil =>
      rw [List.length_nil, Nat.pow_zero, Nat.one_mul]
      rfl
  | cons c ds ih =>
      have hcons : 10 ^ (c :: ds).length * n + digitsValue (c :: ds)
          = 10 ^ ds.length * (10 * n + digitValue c) + digitsValue ds := by
        have hfirst : digitsValue [c] = digitValue c := Nat.zero_add _
        rw [← List.singleton_append, digitsValue_append [c] ds, hfirst,
          List.singleton_append, List.length_cons, Nat.pow_succ, Nat.mul_add,
          Nat.add_assoc, Nat.mul_assoc]
      rw [hcons] at h ⊢
      have hfits : 10 * n + digitValue c < 2 ^ 64 :=
        Nat.lt_of_le_of_lt (Nat.le_mul_of_pos_left _ (Nat.pow_pos (by decide)))
          (Nat.lt_of_le_of_lt (Nat.le_add_right _ _) h)
      rw [takeFitting, if_pos hfits, ih h]

variable {l : Literal}

/-- A number that is short enough is taken as it is spelled. -/
theorem significand_eq (h : l.decimal.coefficient < 2 ^ 64) :
    l.significand = (l.decimal.coefficient, -(l.fraction.length : Int)) := by
  have hall : l.decimal.coefficient = 10 ^ l.fraction.length
      * digitsValue l.whole + digitsValue l.fraction :=
    digitsValue_append l.whole l.fraction
  have hwhole : takeFitting 0 l.whole = (digitsValue l.whole, []) := by
    have hle : digitsValue l.whole ≤ 10 ^ l.fraction.length
        * digitsValue l.whole :=
      Nat.le_mul_of_pos_left _ (Nat.pow_pos (by decide))
    rw [takeFitting_eq (by omega), Nat.mul_zero, Nat.zero_add]
  unfold significand
  rw [hwhole]
  dsimp only
  rw [takeFitting_eq (hall ▸ h), ← hall]
  simp

-- =============================================================== scaling

/-- The powers of ten that are doubles are five to that power and zeros. -/
theorem representable_powerOfTen {k : Nat} (hk : k ≤ 22) :
    Representable (10 ^ k * unitsPerOne) := by
  have hfive : 5 ^ k < 2 ^ 53 :=
    Nat.lt_of_le_of_lt (Nat.pow_le_pow_right (by decide) hk) (by decide)
  have hplaces : sizePlaces = Magnitude.unitPlaces + 1024 := rfl
  have hten : 10 ^ k * unitsPerOne
      = 5 ^ k * 2 ^ (k + Magnitude.unitPlaces) := by
    rw [unitsPerOne, Nat.pow_add, ← Nat.mul_assoc, ← Nat.mul_pow]
  rw [hten]
  exact Magnitude.representable_mul_two_pow hfive (by omega)

theorem powerOfTen_eq {k : Nat} (hk : k ≤ 22) :
    powerOfTen k
      = .finite false ⟨10 ^ k * unitsPerOne, representable_powerOfTen hk⟩ := by
  have hexact := Binary64.ofUnits_mul false
    ⟨10 ^ k * unitsPerOne, representable_powerOfTen hk⟩ Nat.one_pos
  rwa [Nat.mul_one] at hexact

section Exact

variable {c k : Nat} (hc : c < 2 ^ 53) (hk : k ≤ 22)

include hc hk

theorem ofNat_mul_powerOfTen :
    Binary64.ofNat c * powerOfTen k
      = .ofUnits false (c * 10 ^ k * unitsPerOne) 1 := by
  show Binary64.mul _ _ = _
  rw [Binary64.ofNat_eq hc, powerOfTen_eq hk, Binary64.mul, whole_units,
    ← Nat.mul_assoc, Nat.mul_right_comm c]
  have hcancel := Binary64.ofUnits_mul_mul false
    (c * 10 ^ k * unitsPerOne) 1 unitsPerOne_pos
  rwa [Nat.one_mul] at hcancel

theorem ofNat_div_powerOfTen :
    Binary64.ofNat c / powerOfTen k
      = .ofUnits false (c * unitsPerOne) (10 ^ k) := by
  have hpos : 0 < 10 ^ k * unitsPerOne :=
    Nat.mul_pos (Nat.pow_pos (by decide)) unitsPerOne_pos
  show Binary64.div _ _ = _
  rw [Binary64.ofNat_eq hc, powerOfTen_eq hk, Binary64.div,
    if_neg (Nat.ne_of_gt hpos), whole_units]
  exact Binary64.ofUnits_mul_mul _ _ _ unitsPerOne_pos

theorem isFinite_ofNat_mul_powerOfTen :
    (Binary64.ofNat c * powerOfTen k).isFinite = true := by
  have hle : c * 10 ^ k ≤ 2 ^ 127 :=
    calc c * 10 ^ k ≤ 2 ^ 53 * 10 ^ 22 :=
          Nat.mul_le_mul (Nat.le_of_lt hc)
            (Nat.pow_le_pow_right (by decide) hk)
      _ ≤ 2 ^ 127 := by decide
  rw [ofNat_mul_powerOfTen hc hk]
  exact Binary64.isFinite_ofUnits_whole _ hle (by decide)

end Exact

/-- A sign that is put before a quotient is that of the quotient. -/
theorem signed_ofUnits (negative : Bool) (num den : Nat) :
    (if negative then -Binary64.ofUnits false num den
      else .ofUnits false num den) = .ofUnits negative num den := by
  cases negative with
  | true => exact (if_pos rfl).trans (Binary64.neg_ofUnits false num den)
  | false => exact if_neg Bool.false_ne_true

/-- A product or a quotient of doubles is rounded once. -/
theorem scaled?_of_exact {c : Nat} {e : Int} (hc : c < 2 ^ 53)
    (he : e.natAbs ≤ 22) (negative : Bool) :
    (scaled? (.ofNat c) e).map (fun x => if negative then -x else x)
      = some (Decimal.toBinary64 ⟨negative, c, e⟩) := by
  have hshort : c < 10 ^ 16 := Nat.lt_trans hc (by decide)
  rw [scaled?, if_pos (Nat.le_trans he (by decide))]
  by_cases hpositive : 0 ≤ e
  · obtain ⟨k, rfl⟩ := Int.eq_ofNat_of_zero_le hpositive
    have hk : k ≤ 22 := he
    have hdigits : c < 10 ^ (309 - k) := Nat.lt_of_lt_of_le hshort
      (Nat.pow_le_pow_right (by decide) (by omega))
    rw [if_pos hpositive, Int.natAbs_natCast, Option.filter_some,
      if_pos (isFinite_ofNat_mul_powerOfTen hc hk), Option.map_some,
      ofNat_mul_powerOfTen hc hk, signed_ofUnits,
      Decimal.toBinary64_of_tens _ (by omega) hdigits]
  · obtain ⟨k, rfl⟩ : ∃ k : Nat, e = -(k : Int) := ⟨e.natAbs, by omega⟩
    have hk : k ≤ 22 := by omega
    have hdigits : c < 10 ^ (309 + k) := Nat.lt_of_lt_of_le hshort
      (Nat.pow_le_pow_right (by decide) (by omega))
    rw [if_neg hpositive, Int.natAbs_neg, Int.natAbs_natCast, Option.map_some,
      ofNat_div_powerOfTen hc hk, signed_ofUnits,
      Decimal.toBinary64_of_places _ (by omega) hdigits]

-- =============================================================== reading

/-- A literal that is no whole number is read as the double nearest to it,
as if it had been rounded once only. -/
def RoundedOnce (l : Literal) : Prop :=
  l.integer? = none → l.double? = some l.decimal.toBinary64

instance (l : Literal) : Decidable l.RoundedOnce :=
  inferInstanceAs (Decidable (_ → _))

/-- So are literals of which the digits and the power of ten are doubles. -/
theorem roundedOnce_of_exact (hdigits : l.decimal.coefficient < 2 ^ 53)
    (htens : l.decimal.exponent.natAbs ≤ 22)
    (hexponent : (l.exponent.getD 0).natAbs < 2 ^ 31) : l.RoundedOnce := by
  intro _
  have htotal : -(l.fraction.length : Int) + l.exponent.getD 0
      = l.decimal.exponent := Int.add_comm ..
  unfold double?
  rw [significand_eq (Nat.lt_trans hdigits (by decide))]
  dsimp only
  rw [if_pos hexponent, htotal]
  exact scaled?_of_exact hdigits htens l.negative

-- Sixteen digits that are no double.
example : ¬ RoundedOnce
    ⟨false, "9100000000000".toList, "021".toList, none⟩ := by
  decide +kernel

theorem decimal_of_whole (hfraction : l.fraction = [])
    (hexponent : l.exponent = none) :
    l.decimal = ⟨l.negative, digitsValue l.whole, 0⟩ := by
  unfold decimal Decimal.ofDigits
  rw [hfraction, hexponent, List.append_nil]
  rfl

/-- So are whole numbers of 64 bits, of either sign. -/
theorem roundedOnce_of_whole (hfraction : l.fraction = [])
    (hexponent : l.exponent = none) (h : digitsValue l.whole < 2 ^ 64) :
    l.RoundedOnce := by
  intro _
  have hone : powerOfTen 0 = 1 := rfl
  have hdecimal := decimal_of_whole hfraction hexponent
  have hfinite : (Binary64.ofNat (digitsValue l.whole)).isFinite = true :=
    Binary64.isFinite_ofUnits_whole _ (Nat.le_of_lt h) (by decide)
  unfold double?
  rw [significand_eq (by rwa [hdecimal]), hdecimal, hfraction, hexponent]
  dsimp only
  rw [if_pos (by decide), scaled?, if_pos (by decide), if_pos (by decide)]
  show Option.map _ (Option.filter _ (some (_ * powerOfTen 0))) = _
  rw [hone, Binary64.mul_one, Option.filter_some, if_pos hfinite,
    Option.map_some, Decimal.toBinary64_of_whole _ h]
  exact congrArg some (signed_ofUnits _ _ _)

/-- A literal that is a whole number of 64 bits has nothing but a sign and
digits. -/
theorem decimal_of_integer? {i : Int} (h : l.integer? = some i) :
    ∃ c : Nat, c < 2 ^ 64 ∧ l.decimal = ⟨l.negative, c, 0⟩
      ∧ i.natAbs = c ∧ decide (i < 0) = l.negative := by
  unfold integer? at h
  dsimp only at h
  split at h
  next => cases h
  next hplain =>
    obtain ⟨hfraction, hexponent⟩ : l.fraction = [] ∧ l.exponent = none := by
      simpa only [ne_eq, not_or, not_not] using hplain
    refine ⟨digitsValue l.whole, ?_⟩
    rw [decimal_of_whole hfraction hexponent]
    split at h
    next hnegative =>
      obtain ⟨hn, hi⟩ := Option.ite_none_right_eq_some.1 h
      obtain rfl := Option.some.inj hi
      rw [hnegative]
      exact ⟨by omega, rfl, by omega, decide_eq_true (by omega)⟩
    next hpositive =>
      obtain ⟨hn, hi⟩ := Option.ite_none_right_eq_some.1 h
      obtain rfl := Option.some.inj hi
      rw [Bool.not_eq_true] at hpositive
      rw [hpositive]
      exact ⟨hn, rfl, by omega, decide_eq_false (by omega)⟩

/-- Such a literal has a number, and it is the double nearest to what is
spelled, also where it is kept exactly. -/
theorem RoundedOnce.exists_number? (h : l.RoundedOnce) :
    ∃ k, l.number? = some k ∧ k.toBinary64 = l.decimal.toBinary64 := by
  unfold number?
  cases hinteger : l.integer? with
  | some i =>
      obtain ⟨c, hc, hdecimal, habs, hsign⟩ := decimal_of_integer? hinteger
      refine ⟨.integer i, rfl, ?_⟩
      rw [hdecimal, Decimal.toBinary64_of_whole _ hc, Number.toBinary64,
        Binary64.ofInt, habs, hsign]
  | none =>
      refine ⟨.real l.decimal.toBinary64, ?_, rfl⟩
      rw [h hinteger]
      rfl

end Json.Literal

end TimedOverlay
