/-
How far rounding goes.

The nearest point of a grid is at most half a step away
(`nearestUnits_error`), and a step is one unit or a small part of the
quotient itself (`gridStep_cases`). So a quotient that a double can hold
is that double (`ofUnits_mul`): whole numbers below `2 ^ 53` are exact,
and multiplying by one changes nothing.
-/
import TimedOverlay.Binary64.Arithmetic

namespace TimedOverlay

-- ======================================================= whole quotients

/-- Rounding stays at the whole part or goes one beyond it, to the nearer
side. -/
theorem roundHalfEven_cases (num den : Nat) :
    (roundHalfEven num den = num / den ∧ 2 * (num % den) ≤ den)
      ∨ (roundHalfEven num den = num / den + 1
        ∧ den ≤ 2 * (num % den)) := by
  unfold roundHalfEven
  dsimp only
  split
  next h => exact .inl ⟨rfl, by omega⟩
  next h =>
    split
    next h' => exact .inr ⟨rfl, by omega⟩
    next h' =>
      split
      next => exact .inl ⟨rfl, by omega⟩
      next => exact .inr ⟨rfl, by omega⟩

theorem roundHalfEven_error (num : Nat) {den : Nat} (h : 0 < den) :
    2 * (roundHalfEven num den * den) ≤ 2 * num + den
      ∧ 2 * num ≤ 2 * (roundHalfEven num den * den) + den := by
  have hdiv := Nat.div_add_mod' num den
  have hmod := Nat.mod_lt num h
  rcases roundHalfEven_cases num den with ⟨hround, hhalf⟩ | ⟨hround, hhalf⟩
  · rw [hround]
    omega
  · have hnext : (num / den + 1) * den = num / den * den + den :=
      Nat.add_one_mul ..
    rw [hround, hnext]
    omega

theorem roundHalfEven_mul (k : Nat) {den : Nat} (h : 0 < den) :
    roundHalfEven (k * den) den = k := by
  unfold roundHalfEven
  rw [Nat.mul_div_cancel _ h, Nat.mul_mod_left]
  exact if_pos (by omega)

-- ============================================================= the grid

namespace Magnitude

/-- The step of a grid is one unit, or so small that `2 ^ 52` of them are
not beyond the quotient. -/
theorem gridStep_cases (num den : Nat) :
    gridStep num den = 1 ∨ den * gridStep num den * 2 ^ 52 ≤ num := by
  unfold gridStep
  by_cases hlow : (num / den).log2 ≤ 52
  · left
    rw [Nat.sub_eq_zero_of_le hlow, Nat.pow_zero]
  · right
    have hne : num / den ≠ 0 := by
      intro h0
      rw [h0] at hlow
      exact hlow (by decide)
    calc den * 2 ^ ((num / den).log2 - 52) * 2 ^ 52
        = den * 2 ^ (num / den).log2 := by
          rw [Nat.mul_assoc, ← Nat.pow_add, Nat.sub_add_cancel (by omega)]
      _ ≤ den * (num / den) := Nat.mul_le_mul_left _ (Nat.log2_self_le hne)
      _ ≤ num := Nat.mul_div_le num den

theorem nearestUnits_error (num : Nat) {den : Nat} (h : 0 < den) :
    2 * (nearestUnits num den * den) ≤ 2 * num + den * gridStep num den
      ∧ 2 * num
        ≤ 2 * (nearestUnits num den * den) + den * gridStep num den := by
  have hstep : 0 < den * gridStep num den :=
    Nat.mul_pos h (Nat.two_pow_pos _)
  have hpoint : nearestUnits num den * den
      = roundHalfEven num (den * gridStep num den)
          * (den * gridStep num den) := by
    unfold nearestUnits
    ac_rfl
  rw [hpoint]
  exact roundHalfEven_error num hstep

/-- A count of units that a double can hold is its own nearest point. -/
theorem nearestUnits_mul {units den : Nat} (hrep : Representable units)
    (h : 0 < den) : nearestUnits (units * den) den = units := by
  have hstep : gridStep (units * den) den = 2 ^ (units.log2 - 52) := by
    unfold gridStep
    rw [Nat.mul_div_cancel _ h]
  obtain ⟨k, hk⟩ := Nat.dvd_of_mod_eq_zero hrep.2
  have hpos : 0 < den * 2 ^ (units.log2 - 52) :=
    Nat.mul_pos h (Nat.two_pow_pos _)
  have hmul : units * den = k * (den * 2 ^ (units.log2 - 52)) := by
    calc units * den = 2 ^ (units.log2 - 52) * k * den := by rw [← hk]
      _ = k * (den * 2 ^ (units.log2 - 52)) := by ac_rfl
  unfold nearestUnits
  rw [hstep, hmul, roundHalfEven_mul k hpos, Nat.mul_comm]
  exact hk.symm

theorem nearest?_mul (m : Magnitude) {den : Nat} (h : 0 < den) :
    nearest? (m.units * den) den = some m := by
  have hunits := nearestUnits_mul m.representable h
  unfold nearest?
  rw [dif_pos (by rw [hunits]; exact m.representable.1)]
  simp only [hunits]

theorem mul_two_pow_lt {n a b : Nat} (h : n < 2 ^ a) :
    n * 2 ^ b < 2 ^ (a + b) := by
  rw [Nat.pow_add]
  exact Nat.mul_lt_mul_of_pos_right h (Nat.two_pow_pos b)

/-- A number of 53 bits and zeros behind it is a size. -/
theorem representable_mul_two_pow {n j : Nat} (h : n < 2 ^ 53)
    (hj : 53 + j ≤ sizePlaces) : Representable (n * 2 ^ j) := by
  have hlt := mul_two_pow_lt (b := j) h
  refine ⟨Nat.lt_of_lt_of_le hlt
    (Nat.pow_le_pow_right (by decide) hj), ?_⟩
  by_cases h0 : n = 0
  · simp [h0]
  · have hne : n * 2 ^ j ≠ 0 :=
      Nat.mul_ne_zero h0 (Nat.pos_iff_ne_zero.1 (Nat.two_pow_pos j))
    have hlog : (n * 2 ^ j).log2 < 53 + j := (Nat.log2_lt hne).2 hlt
    exact Nat.mod_eq_zero_of_dvd (Nat.dvd_trans
      (Nat.pow_dvd_pow 2 (by omega)) (Nat.dvd_mul_left _ n))

theorem representable_whole {n : Nat} (h : n < 2 ^ 53) :
    Representable (n * unitsPerOne) :=
  representable_mul_two_pow h (by decide)

/-- The size of a whole number. -/
def whole (n : Nat) (h : n < 2 ^ 53) : Magnitude :=
  ⟨n * unitsPerOne, representable_whole h⟩

theorem whole_units (n : Nat) (h : n < 2 ^ 53) :
    (whole n h).units = n * unitsPerOne := rfl

end Magnitude

-- ======================================================== exact results

namespace Binary64

open Magnitude (unitsPerOne unitsPerOne_pos whole whole_units)

/-- A quotient that a double can hold is that double. -/
theorem ofUnits_mul (s : Bool) (m : Magnitude) {den : Nat} (h : 0 < den) :
    ofUnits s (m.units * den) den = .finite s m := by
  unfold ofUnits
  rw [m.nearest?_mul h]

/-- A rounded quotient that is finite has the sign that was asked for and
is the nearest point of a grid. -/
theorem units_of_ofUnits {s t : Bool} {num den : Nat} {m : Magnitude}
    (h : ofUnits s num den = .finite t m) :
    t = s ∧ m.units = Magnitude.nearestUnits num den := by
  unfold ofUnits Magnitude.nearest? at h
  split at h
  next n hn =>
    split at hn
    next hfits =>
      cases h
      obtain rfl := Option.some.inj hn
      exact ⟨rfl, rfl⟩
    next => cases hn
  next => cases h

theorem ofUnits_cases (s : Bool) (num den : Nat) :
    ofUnits s num den = .infinite s
      ∨ ∃ m, ofUnits s num den = .finite s m := by
  unfold ofUnits
  cases Magnitude.nearest? num den with
  | none => exact .inl rfl
  | some m => exact .inr ⟨m, rfl⟩

/-- A whole number below `2 ^ 53` is exact. -/
theorem ofNat_eq {n : Nat} (h : n < 2 ^ 53) :
    ofNat n = .finite false (whole n h) := by
  have hexact := ofUnits_mul false (whole n h) Nat.one_pos
  rwa [Nat.mul_one] at hexact

theorem one_eq : (1 : Binary64) = .finite false (whole 1 (by decide)) :=
  ofNat_eq (by decide)

theorem zero_eq : (0 : Binary64) = .finite false (whole 0 (by decide)) :=
  ofNat_eq (by decide)

theorem one_mul (x : Binary64) : 1 * x = x := by
  show mul 1 x = x
  rw [one_eq]
  cases x with
  | nan => rfl
  | infinite s =>
      have hne : (whole 1 (by decide)).units ≠ 0 := by
        rw [whole_units, Nat.one_mul]
        exact Nat.pos_iff_ne_zero.1 unitsPerOne_pos
      rw [mul, if_neg hne]
      simp
  | finite s m =>
      rw [mul, whole_units, Nat.one_mul, Nat.mul_comm,
        ofUnits_mul _ m unitsPerOne_pos]
      simp

-- ========================================================= comparisons

theorem signedUnits_false (m : Magnitude) :
    signedUnits false m = m.units := rfl

theorem signedUnits_true (m : Magnitude) :
    signedUnits true m = -m.units := rfl

/-- Finite numbers are in the order of their units. -/
theorem lt_finite {s t : Bool} {m n : Magnitude} :
    lt (.finite s m) (.finite t n) = true
      ↔ signedUnits s m < signedUnits t n :=
  decide_eq_true_iff

theorem le_finite {s t : Bool} {m n : Magnitude} :
    le (.finite s m) (.finite t n) = true
      ↔ signedUnits s m ≤ signedUnits t n := by
  unfold le lt same
  simp only [Bool.or_eq_true, decide_eq_true_eq, beq_iff_eq]
  omega

/-- Of two numbers at most one is the smaller, and the other is not even
equal to it. -/
theorem le_eq_false_of_lt {x y : Binary64}
    (h : x.lt y = true) : y.le x = false := by
  cases x with
  | nan => cases h
  | infinite s =>
      cases y with
      | nan => simp [lt] at h
      | infinite t =>
          cases s
          · simp [lt] at h
          · cases t
            · rfl
            · simp [lt] at h
      | finite t n =>
          cases s
          · simp [lt] at h
          · rfl
  | finite s m =>
      cases y with
      | nan => simp [lt] at h
      | infinite t =>
          cases t
          · rfl
          · simp [lt] at h
      | finite t n =>
          rw [lt_finite] at h
          rw [Bool.eq_false_iff]
          intro hle
          rw [le_finite] at hle
          omega

/-- What is not below one is positive and has the units of one. -/
theorem one_le_finite {s : Bool} {m : Magnitude} :
    le 1 (.finite s m) = true ↔ s = false ∧ unitsPerOne ≤ m.units := by
  have hone := unitsPerOne_pos
  rw [one_eq, le_finite, signedUnits_false, whole_units, Nat.one_mul]
  cases s with
  | true =>
      rw [signedUnits_true]
      exact ⟨fun h => by omega, fun h => by cases h.1⟩
  | false =>
      rw [signedUnits_false, Int.ofNat_le]
      exact ⟨fun h => ⟨rfl, h⟩, fun h => h.2⟩

/-- What is above zero is positive and has units. -/
theorem zero_lt_finite {s : Bool} {m : Magnitude} :
    lt 0 (.finite s m) = true ↔ s = false ∧ 0 < m.units := by
  rw [zero_eq, lt_finite, signedUnits_false, whole_units, Nat.zero_mul]
  cases s with
  | true =>
      rw [signedUnits_true]
      exact ⟨fun h => by omega, fun h => by cases h.1⟩
  | false =>
      rw [signedUnits_false, Int.ofNat_lt]
      exact ⟨fun h => ⟨rfl, h⟩, fun h => h.2⟩

/-- Only one is the same number as one. -/
theorem eq_one_of_same {x : Binary64} (h : x.same 1 = true) : x = 1 := by
  rw [one_eq] at h ⊢
  cases x with
  | nan => cases h
  | infinite s => cases h
  | finite s m =>
      have hone := unitsPerOne_pos
      have hunits : signedUnits s m = unitsPerOne := by
        have hsame := eq_of_beq h
        rw [hsame, signedUnits, whole_units, Nat.one_mul]
        rfl
      cases s with
      | true =>
          simp only [signedUnits, if_true] at hunits
          omega
      | false =>
          have hm : m = whole 1 (by decide) := by
            obtain ⟨units, hrep⟩ := m
            simp only [Magnitude.mk.injEq, whole, Nat.one_mul]
            exact Int.ofNat_inj.1 hunits
          rw [hm]

end Binary64

end TimedOverlay
