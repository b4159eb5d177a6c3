/-
The exact value of a double.

A finite double stands for a rational number: its signed units over the
units in one (`Binary64.value?`). Comparing and holding between bounds do
on doubles what they do on values, and the nearest whole number and the
least one not below are the same for both. Halving is exact unless the
units are odd (`Binary64.value?_half`), and then the number is far below
two; so a half that is rounded up is right from one upwards
(`Binary64.max_ceil?_half`).
-/
import Mathlib.Data.Rat.Floor
import Mathlib.Tactic.FieldSimp
import Mathlib.Tactic.Linarith
import Mathlib.Tactic.NormNum
import TimedOverlay.Proofs.Binary64.Unit

namespace TimedOverlay.Binary64

open Magnitude (unitsPerOne unitsPerOne_pos whole_units nearestUnits)

-- ================================================================ values

/-- The rational number that a finite double stands for. -/
def value? : Binary64 → Option ℚ
  | .finite s m => some (signedUnits s m / unitsPerOne)
  | _ => none

theorem value?_finite (s : Bool) (m : Magnitude) :
    (finite s m).value? = some ((signedUnits s m : ℚ) / unitsPerOne) := rfl

theorem exists_of_value? {x : Binary64} {a : ℚ} (h : x.value? = some a) :
    ∃ s m, x = .finite s m ∧ a = (signedUnits s m : ℚ) / unitsPerOne := by
  cases x with
  | nan => cases h
  | infinite s => cases h
  | finite s m => exact ⟨s, m, rfl, (Option.some.inj h).symm⟩

theorem units_rat_pos : (0 : ℚ) < unitsPerOne :=
  Nat.cast_pos.2 unitsPerOne_pos

theorem value?_ofNat {n : Nat} (h : n < 2 ^ 53) :
    (ofNat n).value? = some (n : ℚ) := by
  have hunits := units_rat_pos
  rw [ofNat_eq h, value?_finite, signedUnits_false, whole_units,
    Int.cast_natCast, Nat.cast_mul, mul_div_cancel_right₀ _ hunits.ne']

theorem value?_zero : (0 : Binary64).value? = some 0 := by
  show (ofNat 0).value? = some 0
  rw [value?_ofNat (by decide), Nat.cast_zero]

variable {x y : Binary64} {a b : ℚ}

/-- Finite numbers are in the order of their values. -/
theorem lt_iff_of_value? (hx : x.value? = some a) (hy : y.value? = some b) :
    x.lt y = true ↔ a < b := by
  obtain ⟨s, m, rfl, rfl⟩ := exists_of_value? hx
  obtain ⟨t, n, rfl, rfl⟩ := exists_of_value? hy
  rw [lt_finite, div_lt_div_iff_of_pos_right units_rat_pos, Int.cast_lt]

/-- To hold a number between bounds is to hold its value between
theirs. -/
theorem value?_clamp {low high : Binary64} {l h : ℚ}
    (hx : x.value? = some a) (hlow : low.value? = some l)
    (hhigh : high.value? = some h) (hle : l ≤ h) :
    (x.clamp low high).value? = some (max l (Min.min a h)) := by
  unfold clamp
  split
  next hbelow =>
    rw [lt_iff_of_value? hx hlow] at hbelow
    rw [hlow, min_eq_left (by linarith), max_eq_left hbelow.le]
  next hbelow =>
    rw [lt_iff_of_value? hx hlow, not_lt] at hbelow
    split
    next habove =>
      rw [lt_iff_of_value? hhigh hx] at habove
      rw [hhigh, min_eq_right habove.le, max_eq_right hle]
    next habove =>
      rw [lt_iff_of_value? hhigh hx, not_lt] at habove
      rw [hx, min_eq_left habove, max_eq_right hbelow]

/-- The least whole number not below a double is the one not below its
value. -/
theorem ceil?_of_value? (hx : x.value? = some a) : x.ceil? = some ⌈a⌉ := by
  have hone := unitsPerOne_pos
  obtain ⟨s, m, rfl, rfl⟩ := exists_of_value? hx
  refine congrArg some ?_
  cases s with
  | true =>
      rw [signedUnits_true, Rat.ceil_intCast_div_natCast, Int.neg_neg]
      rfl
  | false =>
      rw [signedUnits_false, Rat.ceil_intCast_div_natCast]
      -- Rounding up is adding all but one unit first.
      have hquotient : -(m.units : Int) / unitsPerOne
          = -((m.units + (unitsPerOne - 1)) / unitsPerOne : Nat) := by
        have hdiv :=
          Nat.div_add_mod' (m.units + (unitsPerOne - 1)) unitsPerOne
        have hmod := Nat.mod_lt (m.units + (unitsPerOne - 1)) hone
        rw [Int.ediv_eq_iff_of_pos (Int.natCast_pos.2 hone), Int.neg_mul,
          ← Int.natCast_mul]
        omega
      rw [hquotient, Int.neg_neg]
      rfl

-- =============================================================== rounding

/-- The whole number nearest to a rational one, a half going away from
zero. -/
def roundAway (a : ℚ) : Int := if a < 0 then -⌊-a + 1 / 2⌋ else ⌊a + 1 / 2⌋

/-- To add a half and round down is to divide with half the divisor
added. -/
theorem floor_add_half (units : Nat) {one : Nat} (hone : 0 < one) :
    ⌊(units : ℚ) / one + 1 / 2⌋ = ((2 * units + one) / (2 * one) : Nat) := by
  have hpos : (one : ℚ) ≠ 0 := Nat.cast_ne_zero.2 (by omega)
  have hsum : (units : ℚ) / one + 1 / 2
      = ((2 * units + one : Int) : ℚ) / ((2 * one : Nat) : ℚ) := by
    push_cast
    field_simp
  rw [hsum, Rat.floor_intCast_div_natCast]
  rfl

theorem roundAway_neg (a : ℚ) : roundAway (-a) = -roundAway a := by
  unfold roundAway
  rcases lt_trichotomy a 0 with h | rfl | h
  · rw [if_neg (by linarith), if_pos h, neg_neg]
  · norm_num
  · rw [if_pos (by linarith), if_neg (by linarith), neg_neg]

/-- To round a double is to round its value. -/
theorem round?_of_value? (hx : x.value? = some a) :
    x.round? = some (roundAway a) := by
  have hone := unitsPerOne_pos
  obtain ⟨s, m, rfl, rfl⟩ := exists_of_value? hx
  rw [round?]
  -- Only the number of units in one matters, not that it is `2 ^ 1074`.
  generalize unitsPerOne = one at hone ⊢
  have hsize : roundAway ((m.units : ℚ) / one)
      = ((2 * m.units + one) / (2 * one) : Nat) := by
    have hnonneg : 0 ≤ (m.units : ℚ) / one :=
      div_nonneg (Nat.cast_nonneg _) (Nat.cast_nonneg _)
    rw [roundAway, if_neg (not_lt.2 hnonneg), floor_add_half _ hone]
  cases s with
  | false =>
      rw [signedUnits_false, Int.cast_natCast, hsize, if_neg nofun]
  | true =>
      rw [signedUnits_true, Int.cast_neg, Int.cast_natCast, neg_div,
        roundAway_neg, hsize, if_pos rfl]

-- =========================================================== rounding up

/-- What is not above a whole number has no whole number above that one
next to it. -/
theorem ceil?_le {s : Bool} {m : Magnitude} {a : Nat}
    (h : m.units ≤ a * unitsPerOne) :
    ((Binary64.finite s m).ceil?.getD 0).toNat ≤ a := by
  have hone := unitsPerOne_pos
  have hceil : (m.units + (unitsPerOne - 1)) / unitsPerOne ≤ a := by
    rw [← Nat.lt_succ_iff, Nat.div_lt_iff_lt_mul hone, Nat.succ_mul]
    omega
  cases s with
  | true =>
      show (-((m.units / unitsPerOne : Nat) : Int)).toNat ≤ a
      rw [Int.toNat_neg_natCast]
      exact Nat.zero_le a
  | false =>
      show (((m.units + (unitsPerOne - 1)) / unitsPerOne : Nat) : Int).toNat
        ≤ a
      rwa [Int.toNat_natCast]

/-- A quotient by a whole number is not above what its exact value is not
above. -/
theorem ceil?_div_le {s : Bool} {m : Magnitude} {a b : Nat}
    (ha : a < 2 ^ 53) (hb : b < 2 ^ 53) (hpos : 0 < b)
    (h : m.units ≤ a * b * unitsPerOne) :
    ((Binary64.finite s m / ofNat b).ceil?.getD 0).toNat ≤ a := by
  have hunits : 0 < b * unitsPerOne := Nat.mul_pos hpos unitsPerOne_pos
  have hexact : m.units * unitsPerOne
      ≤ a * unitsPerOne * (b * unitsPerOne) := by
    rw [Nat.mul_mul_mul_comm, ← Nat.mul_assoc]
    exact Nat.mul_le_mul_right _ h
  have hle : nearestUnits (m.units * unitsPerOne) (b * unitsPerOne)
      ≤ a * unitsPerOne :=
    Magnitude.nearestUnits_le hunits (Magnitude.representable_whole ha).2
      hexact
  show ((div (.finite s m) (ofNat b)).ceil?.getD 0).toNat ≤ a
  rw [ofNat_eq hb, div, Magnitude.whole_units,
    if_neg (Nat.pos_iff_ne_zero.1 hunits)]
  rcases ofUnits_cases (s != false) (m.units * unitsPerOne)
    (b * unitsPerOne) with hinfinite | ⟨n, hn⟩
  · rw [hinfinite]
    exact Nat.zero_le a
  · rw [hn]
    exact ceil?_le (by rwa [(units_of_ofUnits hn).2])

-- =============================================================== halving

/-- An even count of units that a double can hold has a half. -/
theorem exists_half {m : Magnitude} (h : m.units % 2 = 0) :
    ∃ n : Magnitude, m.units = 2 * n.units := by
  obtain ⟨k, hk⟩ := Nat.dvd_of_mod_eq_zero h
  obtain ⟨hlt, hmod⟩ := m.representable
  refine ⟨⟨k, by omega, ?_⟩, hk⟩
  by_cases h0 : k = 0
  · rw [h0, Nat.zero_mod]
  rw [hk, Nat.log2_two_mul h0] at hmod
  by_cases hlow : k.log2 ≤ 52
  · rw [Nat.sub_eq_zero_of_le hlow, Nat.pow_zero, Nat.mod_one]
  · rw [show k.log2 + 1 - 52 = k.log2 - 52 + 1 by omega, Nat.pow_succ',
      Nat.mul_mod_mul_left] at hmod
    omega

/-- A double has an odd count of units only below `2 ^ 53`. -/
theorem units_lt_of_odd {m : Magnitude} (h : m.units % 2 = 1) :
    m.units < 2 ^ 53 := by
  by_contra hle
  have h0 : m.units ≠ 0 := by omega
  have hlog : 53 ≤ m.units.log2 := (Nat.le_log2 h0).2 (by omega)
  have hdvd := Nat.dvd_of_mod_eq_zero m.representable.2
  rw [show m.units.log2 - 52 = m.units.log2 - 53 + 1 by omega,
    Nat.pow_succ'] at hdvd
  obtain ⟨k, hk⟩ := Nat.dvd_trans (Nat.dvd_mul_right 2 _) hdvd
  omega

theorem two_eq : (2 : Binary64) = finite false (.whole 2 (by decide)) :=
  ofNat_eq (by decide)

/-- The half of an even count of units is exact. -/
theorem value?_half {s : Bool} {m : Magnitude} (h : m.units % 2 = 0) :
    (finite s m / 2).value?
      = some ((signedUnits s m : ℚ) / unitsPerOne / 2) := by
  have htwo : 0 < 2 * unitsPerOne := Nat.mul_pos (by decide) unitsPerOne_pos
  obtain ⟨n, hn⟩ := exists_half h
  have hhalf : finite s m / 2 = finite s n := by
    show div (finite s m) 2 = _
    rw [two_eq, div, whole_units, if_neg (Nat.pos_iff_ne_zero.1 htwo), hn,
      Nat.mul_comm 2, Nat.mul_assoc, ofUnits_mul _ _ htwo, Bool.bne_false]
  have hsigned : signedUnits s m = 2 * signedUnits s n := by
    unfold signedUnits
    split <;> omega
  rw [hhalf, value?_finite, hsigned, Int.cast_mul, Int.cast_ofNat,
    mul_div_assoc, mul_div_cancel_left₀ _ two_ne_zero]

/-- Half a double, rounded up, is half of its value rounded up, from one
upwards. -/
theorem max_ceil?_half (hx : x.value? = some a) :
    Max.max 1 ((x / 2).ceil?.getD 0) = Max.max 1 ⌈a / 2⌉ := by
  have hone := unitsPerOne_pos
  obtain ⟨s, m, rfl, rfl⟩ := exists_of_value? hx
  rcases Nat.mod_two_eq_zero_or_one m.units with heven | hodd
  · rw [ceil?_of_value? (value?_half heven)]
    rfl
  · -- The number is a tiny part of two, and so neither side is above one.
    have hsmall : m.units ≤ 2 * unitsPerOne := by
      have hlt := units_lt_of_odd hodd
      have hle : 2 ^ 53 ≤ unitsPerOne :=
        Nat.pow_le_pow_right (by decide) (by decide)
      omega
    have hdouble : ((finite s m / 2).ceil?.getD 0).toNat ≤ 1 :=
      ceil?_div_le (by decide) (by decide) (by decide) (by omega)
    have hvalue : ⌈(signedUnits s m : ℚ) / unitsPerOne / 2⌉ ≤ 1 := by
      have hsigned : signedUnits s m ≤ 2 * unitsPerOne := by
        unfold signedUnits
        split <;> omega
      have hcast : (signedUnits s m : ℚ) ≤ 2 * unitsPerOne := by
        exact_mod_cast hsigned
      rw [Int.ceil_le, Int.cast_one, div_le_one two_pos,
        div_le_iff₀ units_rat_pos]
      exact hcast
    omega

end TimedOverlay.Binary64
