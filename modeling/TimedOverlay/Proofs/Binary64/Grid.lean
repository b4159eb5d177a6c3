/-
Doubles near a quotient.

The grid around a quotient is a grid of doubles, but those below a power
of two are closer to each other than those above it, so a double may lie
between two points of the grid. It is then too far away to matter
(`add_two_pow_le`): a double that is less than half a step away from a
quotient is what the quotient is rounded to (`nearestUnits_of_near`).
Neither the grid nor what is rounded to it depends on how the quotient is
written (`ofUnits_mul_mul`).
-/
import TimedOverlay.Proofs.Binary64.Unit

namespace TimedOverlay

-- ============================================================== rounding

/-- What is less than half a step away from a whole number is rounded to
it. -/
theorem roundHalfEven_of_near {num den k : Nat} (hden : 0 < den)
    (hlow : 2 * (k * den) < 2 * num + den)
    (hhigh : 2 * num < 2 * (k * den) + den) : roundHalfEven num den = k := by
  obtain ⟨hup, hdown⟩ := roundHalfEven_error num hden
  have hle : roundHalfEven num den < k + 1 := by
    refine Nat.lt_of_mul_lt_mul_right (a := den) ?_
    rw [Nat.add_one_mul]
    omega
  have hge : k < roundHalfEven num den + 1 := by
    refine Nat.lt_of_mul_lt_mul_right (a := den) ?_
    rw [Nat.add_one_mul]
    omega
  omega

/-- Rounding depends on the quotient only. -/
theorem roundHalfEven_mul_mul (num den : Nat) {t : Nat} (ht : 0 < t) :
    roundHalfEven (num * t) (den * t) = roundHalfEven num den := by
  unfold roundHalfEven
  dsimp only
  rw [Nat.mul_div_mul_right _ _ ht, Nat.mul_mod_mul_right, ← Nat.mul_assoc]
  simp only [Nat.mul_lt_mul_right ht]

namespace Magnitude

theorem nearestUnits_mul_mul (num den : Nat) {t : Nat} (ht : 0 < t) :
    nearestUnits (num * t) (den * t) = nearestUnits num den := by
  have hstep : gridStep (num * t) (den * t) = gridStep num den := by
    unfold gridStep
    rw [Nat.mul_div_mul_right _ _ ht]
  unfold nearestUnits
  rw [hstep, Nat.mul_right_comm, roundHalfEven_mul_mul _ _ ht]

/-- The largest double below a power of two is a step of the grid under it
away from that. -/
theorem add_two_pow_le {units n : Nat} (h : Representable units)
    (hlt : units < 2 ^ (n + 53)) : units + 2 ^ n ≤ 2 ^ (n + 53) := by
  by_cases hhalf : units < 2 ^ (n + 52)
  · have hpow : 2 ^ (n + 53) = 2 * 2 ^ (n + 52) := Nat.pow_succ'
    have hle : 2 ^ n ≤ 2 ^ (n + 52) :=
      Nat.pow_le_pow_right (by decide) (by omega)
    omega
  · have hne : units ≠ 0 := by
      have := Nat.two_pow_pos (n + 52)
      omega
    have hlog : units.log2 = n + 52 :=
      (Nat.log2_eq_iff hne).2 ⟨Nat.not_lt.1 hhalf, hlt⟩
    have hgrid : 2 ^ n ∣ units := by
      have hdvd := Nat.dvd_of_mod_eq_zero h.2
      rwa [hlog, Nat.add_sub_cancel] at hdvd
    obtain ⟨k, rfl⟩ := hgrid
    rw [Nat.pow_add, Nat.mul_lt_mul_left (Nat.two_pow_pos n)] at hlt
    rw [Nat.pow_add, ← Nat.mul_add_one]
    exact Nat.mul_le_mul_left _ hlt

/-- A double that is less than half a step away from a quotient is what
that is rounded to. Below a power of two the steps are half as wide, but no
double is as near to one as that. -/
theorem nearestUnits_of_near {units num den : Nat}
    (hrep : Representable units) (hden : 0 < den)
    (hlog : 53 ≤ (num / den).log2)
    (hlow : 2 * (units * den) < 2 * num + den * gridStep num den)
    (hhigh : 2 * num < 2 * (units * den) + den * gridStep num den) :
    nearestUnits num den = units := by
  obtain ⟨n, hn⟩ : ∃ n, (num / den).log2 = n + 53 :=
    ⟨(num / den).log2 - 53, by omega⟩
  have hstep : gridStep num den = 2 * 2 ^ n := by
    unfold gridStep
    rw [hn, show n + 53 - 52 = n + 1 by omega, Nat.pow_succ']
  have hgrid : gridStep num den ∣ units := by
    have hlarge : 2 ^ (n + 53) ≤ units := by
      by_contra hlt
      have hbelow := add_two_pow_le hrep (Nat.not_le.1 hlt)
      have hquotient : 2 ^ (n + 53) ≤ num / den := by
        rw [← hn]
        refine Nat.log2_self_le fun h0 => ?_
        rw [h0] at hn
        exact absurd hn (by simp)
      have hnum : 2 ^ (n + 53) * den ≤ num :=
        Nat.mul_le_of_le_div den _ num hquotient
      have hmul : (units + 2 ^ n) * den ≤ 2 ^ (n + 53) * den :=
        Nat.mul_le_mul_right den hbelow
      have hwidth : den * gridStep num den = 2 * (2 ^ n * den) := by
        rw [hstep]
        ac_rfl
      rw [Nat.add_mul] at hmul
      omega
    have hne : units ≠ 0 := by
      have := Nat.two_pow_pos (n + 53)
      omega
    have hle : n + 53 ≤ units.log2 := (Nat.le_log2 hne).2 hlarge
    unfold gridStep
    rw [hn]
    exact Nat.dvd_trans (Nat.pow_dvd_pow 2 (by omega))
      (Nat.dvd_of_mod_eq_zero hrep.2)
  obtain ⟨k, hk⟩ := hgrid
  have hround : roundHalfEven num (den * gridStep num den) = k := by
    have hpoint : units * den = k * (den * gridStep num den) := by
      calc units * den = gridStep num den * k * den := by rw [← hk]
        _ = k * (den * gridStep num den) := by ac_rfl
    rw [hpoint] at hlow hhigh
    refine roundHalfEven_of_near (Nat.mul_pos hden ?_) hlow hhigh
    rw [hstep]
    exact Nat.mul_pos (by decide) (Nat.two_pow_pos n)
  unfold nearestUnits
  rw [hround, Nat.mul_comm]
  exact hk.symm

/-- A point of a grid of steps below `2 ^ n` is below `2 ^ (n + 53)`. -/
theorem nearestUnits_le_of_gridStep_le {num den n : Nat} (hden : 0 < den)
    (h : (num / den).log2 ≤ n + 52) :
    nearestUnits num den ≤ 2 ^ (n + 53) := by
  have hquotient : num / den < 2 ^ (n + 53) :=
    Nat.lt_of_lt_of_le (log2_lt_succ _)
      (Nat.pow_le_pow_right (by decide) (by omega))
  exact nearestUnits_le_two_pow hden
    (Nat.le_of_lt ((Nat.div_lt_iff_lt_mul hden).1 hquotient))

end Magnitude

theorem Binary64.ofUnits_of_nearest? (s : Bool) {num den : Nat}
    {w : Magnitude} (h : Magnitude.nearest? num den = some w) :
    ofUnits s num den = .finite s w := by
  unfold ofUnits
  rw [h]

/-- What is rounded to a double is a quotient, however it is written. -/
theorem Binary64.ofUnits_mul_mul (s : Bool) (num den : Nat) {t : Nat}
    (ht : 0 < t) : ofUnits s (num * t) (den * t) = ofUnits s num den := by
  unfold ofUnits Magnitude.nearest?
  simp only [Magnitude.nearestUnits_mul_mul num den ht]

end TimedOverlay
