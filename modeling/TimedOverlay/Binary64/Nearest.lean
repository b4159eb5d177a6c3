/-
Rounding an exact quotient to the nearest double.

Every operation that has to round does it here, and only once: it hands
over the exact result as a quotient of whole numbers. The grid around a
quotient is a power of two chosen so that 53 bits are left
(`gridStep`); the point of the grid nearest to it is the answer, ties
going to the even point. A carry into a 54th bit is harmless, because
such a result is a power of two.
-/
import TimedOverlay.Binary64.Basic

namespace TimedOverlay

-- ======================================================= whole quotients

/-- `num / den` as the nearest whole number, a half going to the even
neighbour. -/
def roundHalfEven (num den : Nat) : Nat :=
  let q := num / den
  let r := num % den
  if 2 * r < den then q
  else if den < 2 * r then q + 1
  else if q % 2 = 0 then q else q + 1

/-- Rounding never goes below the whole part. -/
theorem div_le_roundHalfEven (num den : Nat) :
    num / den ≤ roundHalfEven num den := by
  unfold roundHalfEven
  grind

/-- Rounding goes at most one beyond the whole part. -/
theorem roundHalfEven_le (num den : Nat) :
    roundHalfEven num den ≤ num / den + 1 := by
  unfold roundHalfEven
  grind

-- ============================================================= the grid

namespace Magnitude

/-- The distance of neighbouring doubles around `num / den` units, for
quotients in its binary octave. -/
def gridStep (num den : Nat) : Nat := 2 ^ ((num / den).log2 - 52)

/-- The nearest point of the grid around `num / den`. -/
def nearestUnits (num den : Nat) : Nat :=
  roundHalfEven num (den * gridStep num den) * gridStep num den

/-- A number is below the power of two that has one place more. -/
theorem log2_lt_succ (n : Nat) : n < 2 ^ (n.log2 + 1) := by
  by_cases h : n = 0
  · subst h; exact Nat.two_pow_pos _
  · exact (Nat.log2_eq_iff h).1 rfl |>.2

/-- A point of the grid that is not too large is a double. -/
theorem representable_nearestUnits {num den : Nat}
    (h : nearestUnits num den < 2 ^ sizePlaces) :
    Representable (nearestUnits num den) := by
  refine ⟨h, ?_⟩
  generalize hk : (num / den).log2 - 52 = k
  generalize hm : roundHalfEven num (den * 2 ^ k) = m
  have hu : nearestUnits num den = m * 2 ^ k := by
    unfold nearestUnits gridStep
    rw [hk, hm]
  have hq : num / (den * 2 ^ k) < 2 ^ 53 := by
    rw [← Nat.div_div_eq_div_mul, Nat.div_lt_iff_lt_mul (Nat.two_pow_pos _),
      ← Nat.pow_add]
    exact Nat.lt_of_lt_of_le (log2_lt_succ _)
      (Nat.pow_le_pow_right (by decide) (by omega))
  have hle : m ≤ 2 ^ 53 := by
    have := roundHalfEven_le num (den * 2 ^ k)
    omega
  rw [hu]
  by_cases h0 : m = 0
  · simp [h0]
  by_cases htop : m = 2 ^ 53
  · have hlog : (m * 2 ^ k).log2 = 53 + k := by
      rw [htop, ← Nat.pow_add, Nat.log2_two_pow]
    rw [hlog, htop, ← Nat.pow_add]
    exact Nat.mod_eq_zero_of_dvd (Nat.pow_dvd_pow 2 (by omega))
  · have hlog : (m * 2 ^ k).log2 ≤ 52 + k := by
      have hne : m * 2 ^ k ≠ 0 :=
        Nat.mul_ne_zero h0 (Nat.pos_iff_ne_zero.1 (Nat.two_pow_pos k))
      have : (m * 2 ^ k).log2 < 53 + k := (Nat.log2_lt hne).2 (by
        rw [Nat.pow_add]
        exact Nat.mul_lt_mul_of_pos_right (by omega) (Nat.two_pow_pos k))
      omega
    exact Nat.mod_eq_zero_of_dvd
      (Nat.dvd_trans (Nat.pow_dvd_pow 2 (by omega)) (Nat.dvd_mul_left _ _))

/-- The size nearest to `num / den` units; none when that is beyond the
largest one. -/
def nearest? (num den : Nat) : Option Magnitude :=
  if h : nearestUnits num den < 2 ^ sizePlaces then
    some ⟨nearestUnits num den, representable_nearestUnits h⟩
  else none

end Magnitude

/-- The double nearest to `num / den` units, with the given sign; what
is too large becomes an infinity. -/
def Binary64.ofUnits (negative : Bool) (num den : Nat) : Binary64 :=
  match Magnitude.nearest? num den with
  | some m => .finite negative m
  | none => .infinite negative

end TimedOverlay
