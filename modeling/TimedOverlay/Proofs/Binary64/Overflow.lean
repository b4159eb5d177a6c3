/-
Which products of doubles are doubles.

A quotient is rounded to an infinity exactly if it reaches the largest
size and half a step of the grid there: below that it is rounded to the
largest size at most, and at that point itself the tie goes to the even
neighbour, which is a power of two and too large
(`nearestUnits_lt_two_pow_iff`). So the product of two doubles is finite
exactly if both are and the exact product stays below `limit`
(`isFinite_mul`). Nothing is said of how a product is computed; the
condition is about the exact product alone.
-/
import TimedOverlay.Proofs.Binary64.Unit

namespace TimedOverlay

-- ============================================================== rounding

/-- A quotient is rounded below an even number exactly if it is more than
one half away from it; from one half away it is rounded to it. -/
theorem roundHalfEven_lt_iff {num den k : Nat} (hden : 0 < den)
    (hk : k % 2 = 0) :
    roundHalfEven num den < k ↔ 2 * num + den < 2 * (k * den) := by
  have hparts := Nat.div_add_mod' num den
  have hmod := Nat.mod_lt num hden
  have hround : roundHalfEven num den
      = if 2 * (num % den) < den then num / den
        else if den < 2 * (num % den) then num / den + 1
        else if num / den % 2 = 0 then num / den else num / den + 1 := rfl
  rcases Nat.lt_trichotomy (num / den + 1) k with hlt | heq | hgt
  · have hle : (num / den + 2) * den ≤ k * den :=
      Nat.mul_le_mul_right _ hlt
    have hsum : (num / den + 2) * den = num / den * den + 2 * den :=
      Nat.add_mul ..
    have hup := roundHalfEven_le num den
    exact ⟨fun _ => by omega, fun _ => by omega⟩
  -- Here the quotient lies in the last step below `k`, whose lower end is
  -- odd, so a tie goes up to `k`.
  · have hsum : k * den = num / den * den + den := by
      rw [← heq]
      exact Nat.add_one_mul ..
    rw [hround, hsum]
    split
    next hlow => exact ⟨fun _ => by omega, fun _ => by omega⟩
    next hlow =>
      split
      next => exact ⟨fun _ => by omega, fun _ => by omega⟩
      next =>
        rw [if_neg (by omega)]
        exact ⟨fun _ => by omega, fun _ => by omega⟩
  · have hle : k * den ≤ num / den * den :=
      Nat.mul_le_mul_right _ (by omega)
    have hdown := div_le_roundHalfEven num den
    exact ⟨fun _ => by omega, fun _ => by omega⟩

namespace Magnitude

/-- A point of a grid is not below the power of two under its
quotient. -/
theorem two_pow_log2_le_nearestUnits {num den : Nat}
    (hpos : num / den ≠ 0) :
    2 ^ (num / den).log2 ≤ nearestUnits num den := by
  obtain ⟨j, hj⟩ : ∃ j, (num / den).log2 = j + ((num / den).log2 - 52) :=
    ⟨(num / den).log2 - ((num / den).log2 - 52), by omega⟩
  have hpow : 2 ^ (num / den).log2 = 2 ^ j * gridStep num den := by
    unfold gridStep
    rw [← Nat.pow_add, ← hj]
  have hstep : 0 < gridStep num den := Nat.two_pow_pos _
  unfold nearestUnits
  rw [hpow]
  apply Nat.mul_le_mul_right
  calc 2 ^ j ≤ num / den / gridStep num den := by
        rw [Nat.le_div_iff_mul_le hstep, ← hpow]
        exact Nat.log2_self_le hpos
    _ = num / (den * gridStep num den) := Nat.div_div_eq_div_mul ..
    _ ≤ roundHalfEven num (den * gridStep num den) :=
        div_le_roundHalfEven ..

/-- What is rounded stays below a power of two exactly if it is more than
half a step away from it. -/
theorem nearestUnits_lt_two_pow_iff {num den : Nat} (n : Nat)
    (hden : 0 < den) :
    nearestUnits num den < 2 ^ (n + 54)
      ↔ num + 2 ^ n * den < 2 ^ (n + 54) * den := by
  have htop : 2 ^ (n + 54) * den = 2 * (2 ^ (n + 53) * den) := by
    rw [show n + 54 = n + 53 + 1 by omega, Nat.pow_succ']
    exact Nat.mul_assoc ..
  rcases Nat.lt_trichotomy (num / den).log2 (n + 53) with hlt | heq | hgt
  · have hquotient : num / den < 2 ^ (n + 53) :=
      Nat.lt_of_lt_of_le (log2_lt_succ _)
        (Nat.pow_le_pow_right (by decide) hlt)
    have hnum : num < 2 ^ (n + 53) * den :=
      (Nat.div_lt_iff_lt_mul hden).1 hquotient
    have hhalf : 2 ^ n * den ≤ 2 ^ (n + 53) * den :=
      Nat.mul_le_mul_right _
        (Nat.pow_le_pow_right (by decide) (by omega))
    have hnear := nearestUnits_le_two_pow hden (Nat.le_of_lt hnum)
    have hpow : 2 ^ (n + 53) < 2 ^ (n + 54) :=
      Nat.pow_lt_pow_right (by decide) (by omega)
    exact ⟨fun _ => by omega, fun _ => Nat.lt_of_le_of_lt hnear hpow⟩
  -- The step of the grid under the power of two.
  · have hstep : gridStep num den = 2 ^ (n + 1) := by
      unfold gridStep
      rw [heq, show n + 53 - 52 = n + 1 by omega]
    have hpow : 2 ^ (n + 54) = 2 ^ 53 * 2 ^ (n + 1) := by
      rw [← Nat.pow_add, show 53 + (n + 1) = n + 54 by omega]
    have hgrid : den * 2 ^ (n + 1) = 2 * (2 ^ n * den) := by
      rw [Nat.pow_succ]
      ac_rfl
    have htwice : 2 ^ 53 * (den * 2 ^ (n + 1)) = 2 ^ (n + 54) * den := by
      rw [hpow]
      ac_rfl
    unfold nearestUnits
    rw [hstep, hpow, Nat.mul_lt_mul_right (Nat.two_pow_pos _), ← hpow,
      roundHalfEven_lt_iff (Nat.mul_pos hden (Nat.two_pow_pos _)) (by decide),
      htwice, hgrid]
    exact ⟨fun _ => by omega, fun _ => by omega⟩
  · have hne : num / den ≠ 0 := by
      intro hzero
      rw [hzero] at hgt
      exact absurd hgt (by simp)
    have hpow : 2 ^ (n + 54) ≤ 2 ^ (num / den).log2 :=
      Nat.pow_le_pow_right (by decide) hgt
    have hnear := two_pow_log2_le_nearestUnits hne
    have hnum : 2 ^ (n + 54) * den ≤ num := by
      calc 2 ^ (n + 54) * den ≤ num / den * den :=
            Nat.mul_le_mul_right _
              (Nat.le_trans hpow (Nat.log2_self_le hne))
        _ ≤ num := Nat.div_mul_le_self num den
    exact ⟨fun _ => by omega, fun _ => by omega⟩

/-- The same of what is left of a power of two without half a step. -/
theorem nearestUnits_lt_iff {num den p : Nat} (hp : 54 ≤ p)
    (hden : 0 < den) :
    nearestUnits num den < 2 ^ p ↔ num < (2 ^ p - 2 ^ (p - 54)) * den := by
  obtain ⟨n, rfl⟩ : ∃ n, p = n + 54 := ⟨p - 54, by omega⟩
  rw [nearestUnits_lt_two_pow_iff n hden, Nat.add_sub_cancel, Nat.sub_mul,
    Nat.lt_sub_iff_add_lt]

/-- The units at which sizes end: half a step of the grid above the
largest one. -/
def limit : Nat := 2 ^ sizePlaces - 2 ^ (sizePlaces - 54)

theorem nearestUnits_lt_sizePlaces_iff {num den : Nat} (hden : 0 < den) :
    nearestUnits num den < 2 ^ sizePlaces ↔ num < limit * den :=
  nearestUnits_lt_iff (by decide) hden

end Magnitude

namespace Binary64

open Magnitude (unitsPerOne unitsPerOne_pos limit whole whole_units)

theorem isFinite_ofUnits {num den : Nat} (s : Bool) (hden : 0 < den) :
    (ofUnits s num den).isFinite = true ↔ num < limit * den := by
  rw [← Magnitude.nearestUnits_lt_sizePlaces_iff hden]
  unfold ofUnits Magnitude.nearest?
  by_cases h : Magnitude.nearestUnits num den < 2 ^ sizePlaces
  · rw [dif_pos h]
    exact ⟨fun _ => h, fun _ => rfl⟩
  · rw [dif_neg h]
    exact ⟨fun hfinite => (Bool.false_ne_true hfinite).elim,
      fun hlt => absurd hlt h⟩

/-- Whole numbers of up to 1023 bits are rounded to finite ones. -/
theorem isFinite_ofUnits_whole (s : Bool) {n k : Nat} (hn : n ≤ 2 ^ k)
    (hk : k < 1024) : (ofUnits s (n * unitsPerOne) 1).isFinite = true := by
  have hplaces : sizePlaces = Magnitude.unitPlaces + 1024 := rfl
  have hle : Magnitude.nearestUnits (n * unitsPerOne) 1
      ≤ 2 ^ (k + Magnitude.unitPlaces) := by
    refine Magnitude.nearestUnits_le_two_pow Nat.one_pos ?_
    rw [Nat.mul_one, Nat.pow_add, ← unitsPerOne]
    exact Nat.mul_le_mul_right _ hn
  have hlt : 2 ^ (k + Magnitude.unitPlaces) < 2 ^ sizePlaces :=
    Nat.pow_lt_pow_right (by decide) (by omega)
  rw [isFinite_ofUnits s Nat.one_pos,
    ← Magnitude.nearestUnits_lt_sizePlaces_iff Nat.one_pos]
  exact Nat.lt_of_le_of_lt hle hlt

-- ============================================================== products

/-- Whether two numbers are finite and their exact product is short of
the limit. -/
def productFits : Binary64 → Binary64 → Bool
  | .finite _ m, .finite _ n => m.units * n.units < limit * unitsPerOne
  | _, _ => false

/-- A product is finite exactly if the exact one is short of the
limit. -/
theorem isFinite_mul (x y : Binary64) :
    (x * y).isFinite = x.productFits y := by
  show (mul x y).isFinite = x.productFits y
  cases x with
  | nan => rfl
  | infinite s =>
      cases y with
      | nan => rfl
      | infinite t => rfl
      | finite t n =>
          rw [mul]
          split
          next => rfl
          next => rfl
  | finite s m =>
      cases y with
      | nan => rfl
      | infinite t =>
          rw [mul]
          split
          next => rfl
          next => rfl
      | finite t n =>
          rw [mul, Bool.eq_iff_iff, isFinite_ofUnits _ unitsPerOne_pos,
            productFits, decide_eq_true_eq]

theorem mul_one (x : Binary64) : x * 1 = x := by
  have hcomm : mul x 1 = mul 1 x := by
    rw [one_eq]
    cases x with
    | nan => rfl
    | infinite s => simp [mul, Bool.xor_comm]
    | finite s m => simp [mul, Nat.mul_comm, Bool.xor_comm]
  exact hcomm.trans (one_mul x)

end Binary64

end TimedOverlay
