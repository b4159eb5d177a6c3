/-
Printed numbers are stable.

A number is printed in thousandths, and what is printed is read as the
double nearest to it; by JSON, too, unless there are so many thousandths
that it has to round them twice (`roundedOnce_ofThousandths`). Where doubles are closer to each other than a
thousandth, reading moves the number by less than half of one; where they
are not, it gives back the double that was printed. Either way as many
thousandths are printed again (`Magnitude.roundHalfEven_nearestUnits`),
which goes for doubles of both signs and for those that are not finite,
too (`Binary64.exists_stable`).
-/
import TimedOverlay.Proofs.Binary64.Grid
import TimedOverlay.Proofs.Decimal.Canonical

namespace TimedOverlay

open Json (Numeral)

-- ============================================================ thousandths

namespace Magnitude

variable (m : Magnitude)

/-- The number of thousandths of a size, as a double and then as a number
of thousandths again, is the same. -/
theorem roundHalfEven_nearestUnits :
    nearestUnits (Binary64.inPlaces 3 m * unitsPerOne) 1000 < 2 ^ sizePlaces
      ∧ roundHalfEven
          (nearestUnits (Binary64.inPlaces 3 m * unitsPerOne) 1000 * 1000)
          unitsPerOne
        = Binary64.inPlaces 3 m := by
  have hplaces : roundHalfEven (m.units * 1000) unitsPerOne
      = Binary64.inPlaces 3 m := rfl
  obtain ⟨hup, hdown⟩ := roundHalfEven_error (m.units * 1000) unitsPerOne_pos
  rw [hplaces] at hup hdown
  obtain ⟨hup', hdown'⟩ := nearestUnits_error
    (Binary64.inPlaces 3 m * unitsPerOne) (show 0 < 1000 by decide)
  obtain ⟨n, hn⟩ : ∃ n, unitPlaces = n + 10 := ⟨1064, rfl⟩
  have hone : unitsPerOne = 1024 * 2 ^ n := by
    rw [unitsPerOne, hn, Nat.pow_add, Nat.mul_comm]
  have hpos : 0 < 2 ^ n := Nat.two_pow_pos n
  by_cases hfine :
      (Binary64.inPlaces 3 m * unitsPerOne / 1000).log2 ≤ n + 52
  · -- A step is at most the 1024th part of one, and so half of a step is
    -- less than half of a thousandth.
    have hstep : gridStep (Binary64.inPlaces 3 m * unitsPerOne) 1000
        ≤ 2 ^ n :=
      Nat.pow_le_pow_right (by decide) (by omega)
    constructor
    · have hplace : n + 53 < sizePlaces := by
        have hsize : sizePlaces = unitPlaces + 1024 := rfl
        omega
      calc nearestUnits (Binary64.inPlaces 3 m * unitsPerOne) 1000
          ≤ 2 ^ (n + 53) := nearestUnits_le_of_gridStep_le (by decide) hfine
        _ < 2 ^ sizePlaces := Nat.pow_lt_pow_right (by decide) hplace
    · exact roundHalfEven_of_near unitsPerOne_pos (by omega) (by omega)
  · -- A step is at least the 512th part of one, and so half of a step is
    -- more than half of a thousandth.
    have hstep : 2 * 2 ^ n
        ≤ gridStep (Binary64.inPlaces 3 m * unitsPerOne) 1000 := by
      rw [← Nat.pow_succ']
      exact Nat.pow_le_pow_right (by decide) (by omega)
    have hsame : nearestUnits (Binary64.inPlaces 3 m * unitsPerOne) 1000
        = m.units :=
      nearestUnits_of_near m.representable (by decide) (by omega)
        (by omega) (by omega)
    rw [hsame]
    exact ⟨m.representable.1, hplaces⟩

/-- The double nearest to a printed size is printed so, too. -/
theorem exists_nearest_inPlaces :
    ∃ w : Magnitude,
      nearest? (Binary64.inPlaces 3 m * unitsPerOne) 1000 = some w
        ∧ Binary64.inPlaces 3 w = Binary64.inPlaces 3 m := by
  obtain ⟨hfits, hplaces⟩ := m.roundHalfEven_nearestUnits
  exact ⟨⟨_, representable_nearestUnits hfits⟩, dif_pos hfits, hplaces⟩

/-- The largest size has 312 digits when it is counted in thousandths. -/
theorem inPlaces_lt : Binary64.inPlaces 3 m < 10 ^ 312 := by
  obtain ⟨p, hp, htop⟩ :
      ∃ p, sizePlaces = p + unitPlaces ∧ 1000 * 2 ^ p < 10 ^ 312 :=
    ⟨1024, rfl, by decide +kernel⟩
  have hsize : m.units ≤ 2 ^ p * unitsPerOne := by
    rw [unitsPerOne, ← Nat.pow_add, ← hp]
    exact Nat.le_of_lt m.representable.1
  refine Nat.lt_of_le_of_lt
    (roundHalfEven_le_of_le_mul unitsPerOne_pos ?_) htop
  calc m.units * 1000 ≤ 2 ^ p * unitsPerOne * 1000 :=
        Nat.mul_le_mul_right 1000 hsize
    _ = 1000 * 2 ^ p * unitsPerOne := by
        rw [Nat.mul_comm, Nat.mul_assoc]

end Magnitude

-- =============================================================== reading

namespace Json.Numeral

open Magnitude (unitsPerOne)

/-- What is printed for a number of thousandths is read as the double
nearest to it. -/
theorem nearest_ofThousandths {n : ℤ} (h : n.natAbs < 10 ^ 312) :
    (ofThousandths n).nearest
      = .ofUnits (decide (n < 0)) (n.natAbs * unitsPerOne) 1000 := by
  have hlength := Binary64.length_keptDigits_le n.natAbs
  have hshown := Binary64.digitsValue_shown n.natAbs
  unfold nearest
  rw [decimal_ofThousandths]
  generalize Decimal.digitsValue _ = c at hshown ⊢
  generalize (Binary64.keptDigits n.natAbs).length = k at hlength hshown ⊢
  have hpow : 10 ^ k * 10 ^ (3 - k) = 1000 := by
    rw [← Nat.pow_add, Nat.add_sub_cancel' hlength]
  have hpos : 0 < 10 ^ (3 - k) := Nat.pow_pos (by decide)
  have hc : c < 10 ^ (309 + k) := by
    refine Nat.lt_of_mul_lt_mul_right (a := 10 ^ (3 - k)) ?_
    rw [hshown, ← Nat.pow_add, show 309 + k + (3 - k) = 312 by omega]
    exact h
  rw [Decimal.toBinary64_of_places _ (by omega) hc,
    ← Binary64.ofUnits_mul_mul _ _ _ hpos, hpow, Nat.mul_right_comm, hshown]

/-- JSON reads so, too, what is printed for fewer thousandths than a double
can count, and for whole numbers of 64 bits. -/
theorem roundedOnce_ofThousandths {n : ℤ}
    (h : n.natAbs < 2 ^ 53 ∨ n.natAbs % 1000 = 0 ∧ n.natAbs < 1000 * 2 ^ 64) :
    (ofThousandths n).literal.RoundedOnce := by
  have hlength := Binary64.length_keptDigits_le n.natAbs
  have hdecimal := decimal_ofThousandths n
  rcases h with hfew | ⟨hwhole, hshort⟩
  · have hshown := Binary64.digitsValue_shown n.natAbs
    have hpos := Nat.pow_pos (n := 3 - (Binary64.keptDigits n.natAbs).length)
      (show 0 < 10 by decide)
    have hexponent : (0 : ℤ).natAbs < 2 ^ 31 := by decide
    refine Literal.roundedOnce_of_exact ?_ ?_ hexponent
    · rw [hdecimal]
      refine Nat.lt_of_le_of_lt (Nat.le_mul_of_pos_right _ hpos) ?_
      rwa [hshown]
    · rw [hdecimal, Int.natAbs_neg, Int.natAbs_natCast]
      omega
  · have hnone := Binary64.keptDigits_eq_nil hwhole
    refine Literal.roundedOnce_of_whole ?_ rfl ?_
    · show ((fractionOf n.natAbs).map DigitRun.chars).getD [] = []
      rw [getD_fractionOf, hnone]
    · show Decimal.digitsValue (Nat.toDigits 10 (n.natAbs / 1000)) < 2 ^ 64
      rw [Decimal.digitsValue_toDigits]
      omega

end Json.Numeral

namespace Binary64

open Magnitude (unitsPerOne unitsPerOne_pos nearestUnits)

theorem natAbs_thousandthsOf (s : Bool) (m : Magnitude) :
    (thousandthsOf s m).natAbs = inPlaces 3 m := by
  unfold thousandthsOf
  split
  next => rw [Int.natAbs_neg, Int.natAbs_natCast]
  next => rw [Int.natAbs_natCast]

theorem thousandthsOf_of_natAbs {n : ℤ} {m : Magnitude}
    (h : n.natAbs = inPlaces 3 m) :
    thousandthsOf (decide (n < 0)) m = n := by
  unfold thousandthsOf
  generalize inPlaces 3 m = k at h ⊢
  by_cases hlt : n < 0
  · rw [if_pos (decide_eq_true hlt)]
    omega
  · rw [if_neg (by simpa using hlt)]
    omega

theorem inPlaces_zero : inPlaces 3 .zero = 0 := by
  have hunits : Magnitude.zero.units * 10 ^ 3 = 0 := Nat.zero_mul _
  unfold inPlaces
  rw [hunits, roundHalfEven_zero]

/-- As many thousandths as a double has are read as a finite double, which
has as many. -/
theorem nearest_stable {n : ℤ} {m : Magnitude}
    (hn : n.natAbs = inPlaces 3 m) :
    (Numeral.ofThousandths n).nearest.isFinite = true
      ∧ (Numeral.ofThousandths n).nearest.thousandths = thousandthsText n := by
  obtain ⟨w, hw, hplaces⟩ := m.exists_nearest_inPlaces
  have hnearest : (Numeral.ofThousandths n).nearest
      = .finite (decide (n < 0)) w := by
    have hlt : n.natAbs < 10 ^ 312 := by
      rw [hn]
      exact m.inPlaces_lt
    rw [Numeral.nearest_ofThousandths hlt, hn]
    exact ofUnits_of_nearest? _ hw
  have hsame := thousandthsOf_of_natAbs (hn.trans hplaces.symm)
  rw [hnearest]
  exact ⟨rfl, congrArg thousandthsText hsame⟩

/-- A double is printed as a number of thousandths, and the double nearest
to that is finite and is printed so, too. -/
theorem exists_stable (x : Binary64) :
    ∃ n : ℤ, x.thousandths = thousandthsText n
      ∧ (Numeral.ofThousandths n).nearest.isFinite = true
      ∧ (Numeral.ofThousandths n).nearest.thousandths
        = thousandthsText n := by
  have hzero := nearest_stable (n := 0) inPlaces_zero.symm
  cases x with
  | nan => exact ⟨0, rfl, hzero⟩
  | infinite s => exact ⟨0, rfl, hzero⟩
  | finite s m =>
      exact ⟨thousandthsOf s m, rfl,
        nearest_stable (natAbs_thousandthsOf s m)⟩

end Binary64

end TimedOverlay
