/-
The factor of a canvas tells frames apart.

The factor from a canvas to a frame is a rounded quotient, or one where
the two lengths are almost the same. Either way it is so close to the
exact quotient (`near_of_factor`) that frames of different lengths have
different factors, unless no canvas is measured or the factors are beyond
every double (`factor_eq_iff`).
-/
import TimedOverlay.Proofs.Job.Frame

namespace TimedOverlay.Document

open Magnitude (unitsPerOne unitsPerOne_pos whole whole_units nearestUnits
  gridStep)

-- ========================================================== near quotients

/-- A length along an axis is known: it is finite and positive. -/
def Measured (canvas : Option Binary64) : Prop :=
  ∃ n : Magnitude, 0 < n.units ∧ canvas = some (.finite false n)

/-- The size `m` is the quotient of a whole length by a size `n`, up to
a quarter of the exact quotient of one by `n`. -/
def Near (m n : Magnitude) (length : Nat) : Prop :=
  4 * (m.units * n.units)
      ≤ (4 * length + 1) * (unitsPerOne * unitsPerOne)
    ∧ 4 * length * (unitsPerOne * unitsPerOne)
      ≤ 4 * (m.units * n.units) + unitsPerOne * unitsPerOne

theorem Near.le {m n : Magnitude} {a b : Nat} (ha : Near m n a)
    (hb : Near m n b) : a ≤ b := by
  have hone : 0 < unitsPerOne * unitsPerOne :=
    Nat.mul_pos unitsPerOne_pos unitsPerOne_pos
  have hsum : 4 * a * (unitsPerOne * unitsPerOne)
      ≤ (4 * b + 2) * (unitsPerOne * unitsPerOne) := by
    calc 4 * a * (unitsPerOne * unitsPerOne)
        ≤ 4 * (m.units * n.units) + unitsPerOne * unitsPerOne := ha.2
      _ ≤ (4 * b + 1) * (unitsPerOne * unitsPerOne)
          + unitsPerOne * unitsPerOne := Nat.add_le_add_right hb.1 _
      _ = (4 * b + 2) * (unitsPerOne * unitsPerOne) := by
          rw [← Nat.succ_mul]
  have := Nat.le_of_mul_le_mul_right hsum hone
  omega

/-- Every size is small beside the square of the units in one. -/
theorem units_lt_square (n : Magnitude) :
    2 * n.units ≤ unitsPerOne * unitsPerOne := by
  have hlt := n.representable.1
  have hsquare : unitsPerOne * unitsPerOne
      = 2 ^ (Magnitude.unitPlaces + Magnitude.unitPlaces) := by
    rw [unitsPerOne, Nat.pow_add]
  have hpow : 2 ^ sizePlaces * 2 ≤ unitsPerOne * unitsPerOne := by
    rw [hsquare, ← Nat.pow_succ]
    exact Nat.pow_le_pow_right (by decide) (by decide)
  omega

/-- A nearest point of a grid for the quotient of a length is near. -/
theorem near_of_nearestUnits {m n : Magnitude} (hn : 0 < n.units)
    {a : Nat} (ha : IsLength a)
    (hm : m.units = nearestUnits (a * unitsPerOne * unitsPerOne) n.units) :
    Near m n a := by
  obtain ⟨hup, hdown⟩ := Magnitude.nearestUnits_error
    (a * unitsPerOne * unitsPerOne) hn
  rw [← hm] at hup hdown
  have hstep : 2 * (n.units
      * gridStep (a * unitsPerOne * unitsPerOne) n.units)
        ≤ unitsPerOne * unitsPerOne := by
    -- A step is one unit, or at most a `2 ^ 52`nd part of a quotient that
    -- is itself below `2 ^ 32` squares of one.
    rcases Magnitude.gridStep_cases (a * unitsPerOne * unitsPerOne) n.units
      with hone | hsmall
    · rw [hone, Nat.mul_one]
      exact units_lt_square n
    · have hlength : a * unitsPerOne * unitsPerOne
          ≤ 2 ^ 32 * (unitsPerOne * unitsPerOne) := by
        rw [Nat.mul_assoc]
        exact Nat.mul_le_mul_right _ (Nat.le_of_lt ha.2)
      omega
  rw [Nat.mul_assoc] at hup hdown hstep
  constructor
  · rw [Nat.add_mul, Nat.one_mul, Nat.mul_assoc]
    omega
  · rw [Nat.mul_assoc]
    omega

-- ============================================================= tolerance

/-- The size of the tolerance. -/
def toleranceSize : Magnitude := ⟨2 ^ 1022, by decide +kernel⟩

theorem tolerance_eq : tolerance = .finite false toleranceSize := by
  have hunits : unitsPerOne = toleranceSize.units * 2 ^ 52 := by
    decide +kernel
  unfold tolerance
  rw [hunits]
  exact Binary64.ofUnits_mul false toleranceSize (Nat.two_pow_pos 52)

theorem toleranceSize_le : 8 * toleranceSize.units ≤ unitsPerOne := by
  decide +kernel

/-- The sign of a rounded number does not matter to its size. -/
theorem abs_ofUnits (s : Bool) (num den : Nat) :
    (Binary64.ofUnits s num den).abs = .ofUnits false num den := by
  unfold Binary64.ofUnits
  cases Magnitude.nearest? num den with
  | none => rfl
  | some m => rfl

/-- What is rounded to no more than the tolerance is less than a quarter
of one. -/
theorem units_of_tolerance {units : Nat}
    (h : tolerance.lt (.ofUnits false units 1) = false) :
    4 * units ≤ unitsPerOne := by
  have hsmall := toleranceSize_le
  obtain ⟨_, hdown⟩ := Magnitude.nearestUnits_error units Nat.one_pos
  have hstep := Magnitude.gridStep_cases units 1
  rw [tolerance_eq] at h
  unfold Binary64.ofUnits Magnitude.nearest? at h
  split at h
  next m hm =>
    split at hm
    next hfits =>
      obtain rfl := Option.some.inj hm
      have hle : nearestUnits units 1 ≤ toleranceSize.units := by
        have hnot := mt Binary64.lt_finite.2 (Bool.eq_false_iff.1 h)
        rw [Binary64.signedUnits_false, Binary64.signedUnits_false,
          Int.ofNat_lt, Nat.not_lt] at hnot
        exact hnot
      omega
    next => cases hm
  next => cases h

/-- The distance of two positive sizes, rounded. -/
theorem abs_sub (m n : Magnitude) (hne : m.units ≠ n.units) :
    (Binary64.finite false m - .finite false n).abs
      = .ofUnits false ((m.units : Int) - n.units).natAbs 1 := by
  show (Binary64.ofSignedUnits (false && !false)
    ((m.units : Int) + -(n.units : Int))).abs = _
  unfold Binary64.ofSignedUnits
  rw [if_neg (by omega), abs_ofUnits]
  rfl

/-- A canvas within the tolerance of a length differs from it by less
than a quarter of one. -/
theorem units_of_within {n : Magnitude} {a : Nat} (ha : IsLength a)
    (h : tolerance.lt (Binary64.finite false n - .ofNat a).abs = false) :
    4 * n.units ≤ 4 * (a * unitsPerOne) + unitsPerOne
      ∧ 4 * (a * unitsPerOne) ≤ 4 * n.units + unitsPerOne := by
  rw [Binary64.ofNat_eq ha.lt] at h
  by_cases hsame : n.units = (whole a ha.lt).units
  · rw [hsame, whole_units]
    omega
  · rw [abs_sub _ _ hsame] at h
    have hclose := units_of_tolerance h
    rw [whole_units] at hclose
    omega

theorem near_one {n : Magnitude} {a : Nat}
    (h : 4 * n.units ≤ 4 * (a * unitsPerOne) + unitsPerOne
      ∧ 4 * (a * unitsPerOne) ≤ 4 * n.units + unitsPerOne) :
    Near (whole 1 (by decide)) n a := by
  obtain ⟨hup, hdown⟩ := h
  unfold Near
  rw [whole_units, Nat.one_mul]
  generalize unitsPerOne = u at *
  constructor
  · calc 4 * (u * n.units) = u * (4 * n.units) := by ac_rfl
      _ ≤ u * (4 * (a * u) + u) := Nat.mul_le_mul_left _ hup
      _ = 4 * a * (u * u) + u * u := by
          rw [Nat.mul_add]
          ac_rfl
      _ = (4 * a + 1) * (u * u) := (Nat.succ_mul ..).symm
  · calc 4 * a * (u * u) = u * (4 * (a * u)) := by ac_rfl
      _ ≤ u * (4 * n.units + u) := Nat.mul_le_mul_left _ hdown
      _ = 4 * (u * n.units) + u * u := by
          rw [Nat.mul_add]
          ac_rfl

-- =============================================================== factors

theorem div_finite (m : Magnitude) {n : Magnitude} (hn : 0 < n.units) :
    Binary64.finite false m / .finite false n
      = .ofUnits false (m.units * unitsPerOne) n.units := by
  show Binary64.div _ _ = _
  rw [Binary64.div, if_neg (Nat.pos_iff_ne_zero.1 hn)]
  rfl

theorem factor_some (c : Binary64) (a : Nat) :
    factor (some c) a
      = if Binary64.lt 0 c && tolerance.lt (c - .ofNat a).abs then
          .ofNat a / c
        else 1 := rfl

/-- The factor of a measured canvas is one within the tolerance and a
rounded quotient otherwise. -/
theorem factor_of_size {n : Magnitude} (hn : 0 < n.units) {a : Nat}
    (ha : IsLength a) :
    factor (some (.finite false n)) a
      = if tolerance.lt (Binary64.finite false n - .ofNat a).abs then
          .ofUnits false (a * unitsPerOne * unitsPerOne) n.units
        else 1 := by
  have hpos : Binary64.lt 0 (.finite false n) = true :=
    Binary64.zero_lt_finite.2 ⟨rfl, hn⟩
  have hdiv := div_finite (whole a ha.lt) hn
  rw [whole_units, ← Binary64.ofNat_eq ha.lt] at hdiv
  rw [factor_some, hpos, Bool.true_and, hdiv]

/-- A finite factor of a measured canvas is near the quotient of the
lengths. -/
theorem near_of_factor {n m : Magnitude} {s : Bool} (hn : 0 < n.units)
    {a : Nat} (ha : IsLength a)
    (h : factor (some (.finite false n)) a = .finite s m) : Near m n a := by
  rw [factor_of_size hn ha] at h
  split at h
  next =>
    exact near_of_nearestUnits hn ha (Binary64.units_of_ofUnits h).2
  next hwithin =>
    rw [Binary64.one_eq] at h
    cases h
    exact near_one (units_of_within ha (by simpa using hwithin))

theorem factor_cases {n : Magnitude} (hn : 0 < n.units) {a : Nat}
    (ha : IsLength a) :
    factor (some (.finite false n)) a = .infinite false
      ∨ ∃ m, factor (some (.finite false n)) a = .finite false m := by
  rw [factor_of_size hn ha]
  split
  next => exact Binary64.ofUnits_cases ..
  next => exact .inr ⟨_, Binary64.one_eq⟩

theorem factor_of_not_pos {c : Binary64} (h : Binary64.lt 0 c = false)
    (a : Nat) : factor (some c) a = 1 := by
  rw [factor_some, h, Bool.false_and, if_neg Bool.false_ne_true]

theorem factor_of_infinite {a : Nat} (ha : IsLength a) :
    factor (some (.infinite false)) a = .finite false .zero := by
  have hpos : Binary64.lt 0 (.infinite false) = true := by
    rw [Binary64.zero_eq]
    rfl
  rw [factor_some, hpos, Bool.true_and, tolerance_eq,
    Binary64.ofNat_eq ha.lt]
  rfl

/-- A canvas that is not measured has the factor one, or it is
infinite. -/
theorem factor_of_unmeasured {canvas : Option Binary64}
    (h : ¬ Measured canvas) :
    (∀ a, factor canvas a = 1) ∨ canvas = some (.infinite false) := by
  cases canvas with
  | none => exact .inl fun _ => rfl
  | some c =>
      cases hpos : Binary64.lt 0 c with
      | false => exact .inl (factor_of_not_pos hpos)
      | true =>
          cases c with
          | nan =>
              rw [Binary64.zero_eq] at hpos
              cases hpos
          | infinite s =>
              rw [Binary64.zero_eq] at hpos
              cases s with
              | true => cases hpos
              | false => exact .inr rfl
          | finite s n =>
              obtain ⟨rfl, hn⟩ := Binary64.zero_lt_finite.1 hpos
              exact absurd ⟨n, hn, rfl⟩ h

/-- Without a measured canvas all lengths have one factor. -/
theorem factor_of_not_measured {canvas : Option Binary64}
    (h : ¬ Measured canvas) {a b : Nat} (ha : IsLength a) (hb : IsLength b) :
    factor canvas a = factor canvas b := by
  rcases factor_of_unmeasured h with hone | rfl
  · rw [hone, hone]
  · rw [factor_of_infinite ha, factor_of_infinite hb]

/-- Two lengths have the same factor only if they are the same, if the
canvas is not measured, or if the factors are beyond every double. -/
theorem factor_eq_iff {canvas : Option Binary64} {a b : Nat}
    (ha : IsLength a) (hb : IsLength b) :
    factor canvas a = factor canvas b
      ↔ a = b ∨ ¬ Measured canvas
        ∨ (factor canvas a = .infinite false
          ∧ factor canvas b = .infinite false) := by
  constructor
  · intro heq
    by_cases hmeasured : Measured canvas
    · obtain ⟨n, hn, rfl⟩ := hmeasured
      rcases factor_cases hn ha with hinf | ⟨m, hm⟩
      · exact .inr (.inr ⟨hinf, heq ▸ hinf⟩)
      -- Both lengths are near the one size that the factor is.
      · have hneara := near_of_factor hn ha hm
        have hnearb := near_of_factor hn hb (heq.symm.trans hm)
        exact .inl (Nat.le_antisymm (hneara.le hnearb) (hnearb.le hneara))
    · exact .inr (.inl hmeasured)
  · rintro (rfl | hnot | ⟨hinf, hinf'⟩)
    · rfl
    · exact factor_of_not_measured hnot ha hb
    · rw [hinf, hinf']

end TimedOverlay.Document
