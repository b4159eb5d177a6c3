/-
How the layers of a shadow fade.

Layer `i` of `n` has the part `1 - i / (n + 1)` of the opacity of its
shadow (`layerOpacity`): the first layer has all of it, each next one
less, in equal steps of which one more would lead to nothing. That is said
of exact numbers. What is drawn is the same expression with doubles. Its
first value is the shadow's own opacity, bit for bit, and every other one
is as near to the exact one as rounding leaves it. There are one to six
layers, whatever the shadow is, and with a deeper blur no fewer
(`Shadow.fades_steps`).
-/
import Mathlib.Tactic.FieldSimp
import Mathlib.Tactic.IntervalCases
import Mathlib.Tactic.Positivity
import TimedOverlay.Proofs.Binary64.Grid
import TimedOverlay.Proofs.Binary64.Overflow
import TimedOverlay.Proofs.Binary64.Value
import TimedOverlay.Proofs.Program.Depth
import TimedOverlay.Proofs.Program.Inert

namespace TimedOverlay

-- ============================================================== products

namespace Magnitude

/-- What a product of two counts of `u` parts of one has for an error if it
is rounded to `p` parts, on a grid with steps of `g` parts. -/
theorem product_error {p a b u g : ℕ} (hu : 0 < u)
    (hup : 2 * (p * u) ≤ 2 * (a * b) + u * g)
    (hdown : 2 * (a * b) ≤ 2 * (p * u) + u * g)
    (hstep : g = 1 ∨ u * g * 2 ^ 52 ≤ a * b) :
    |(p : ℚ) / u - a / u * (b / u)|
      ≤ a / u * (b / u) / 2 ^ 53 + 1 / (2 * u) := by
  have hone : (0 : ℚ) < u := Nat.cast_pos.2 hu
  have hdiff : (p : ℚ) / u - a / u * (b / u) = (p * u - a * b) / (u * u) := by
    field_simp
  have hnum : |(p * u - a * b : ℚ)| ≤ u * g / 2 := by
    have hup' : (2 * (p * u) : ℚ) ≤ 2 * (a * b) + u * g := by
      exact_mod_cast hup
    have hdown' : (2 * (a * b) : ℚ) ≤ 2 * (p * u) + u * g := by
      exact_mod_cast hdown
    exact abs_le.2 ⟨by linarith, by linarith⟩
  calc |(p : ℚ) / u - a / u * (b / u)|
      = |(p * u - a * b : ℚ)| / (u * u) := by
        rw [hdiff, abs_div, abs_of_pos (mul_pos hone hone)]
    _ ≤ u * g / 2 / (u * u) :=
        div_le_div_of_nonneg_right hnum (mul_pos hone hone).le
    _ ≤ a / u * (b / u) / 2 ^ 53 + 1 / (2 * u) := by
        rcases hstep with rfl | hstep
        · have hunit : (u : ℚ) * (1 : ℕ) / 2 / (u * u) = 1 / (2 * u) := by
            rw [Nat.cast_one]
            field_simp
          have hproduct : (0 : ℚ) ≤ a / u * (b / u) / 2 ^ 53 := by positivity
          linarith
        · have hstep' : (u * g * 2 ^ 52 : ℚ) ≤ a * b := by
            exact_mod_cast hstep
          have hgrid : (u : ℚ) * g / 2 / (u * u)
              ≤ a * b / 2 ^ 53 / (u * u) :=
            div_le_div_of_nonneg_right (by linarith)
              (mul_pos hone hone).le
          have hproduct : (a : ℚ) / u * (b / u) / 2 ^ 53
              = a * b / 2 ^ 53 / (u * u) := by
            field_simp
          have hhalf : (0 : ℚ) ≤ 1 / (2 * u) := by positivity
          linarith

/-- The error of a product of sizes, one of which is not above one: half
of a unit, and a small part of the product. -/
theorem exists_mul_near (m n : Magnitude) (h : n.units ≤ unitsPerOne) :
    ∃ p : Magnitude,
      Binary64.finite false m * .finite false n = .finite false p
        ∧ |(p.units : ℚ) / unitsPerOne
            - m.units / unitsPerOne * (n.units / unitsPerOne)|
          ≤ m.units / unitsPerOne * (n.units / unitsPerOne) / 2 ^ 53
            + 1 / (2 * unitsPerOne) := by
  have hfits : nearestUnits (m.units * n.units) unitsPerOne
      < 2 ^ sizePlaces :=
    Nat.lt_of_le_of_lt
      (nearestUnits_le unitsPerOne_pos m.representable.2
        (Nat.mul_le_mul_left _ h))
      m.representable.1
  have hnearest : nearest? (m.units * n.units) unitsPerOne
      = some ⟨_, representable_nearestUnits hfits⟩ := dif_pos hfits
  obtain ⟨hup, hdown⟩ :=
    nearestUnits_error (m.units * n.units) unitsPerOne_pos
  have hmul : Binary64.finite false m * .finite false n
      = .ofUnits false (m.units * n.units) unitsPerOne := by
    show Binary64.mul _ _ = _
    rw [Binary64.mul, Bool.bne_false]
  refine ⟨_, hmul.trans (Binary64.ofUnits_of_nearest? _ hnearest), ?_⟩
  exact product_error unitsPerOne_pos hup hdown (gridStep_cases _ _)

end Magnitude

namespace Binary64

variable {x y : Binary64} {a b : ℚ}

theorem exists_of_value?_pos (hx : x.value? = some a) (ha : 0 < a) :
    ∃ m : Magnitude, x = .finite false m
      ∧ a = (m.units : ℚ) / Magnitude.unitsPerOne := by
  obtain ⟨s, m, rfl, rfl⟩ := exists_of_value? hx
  cases s with
  | false => exact ⟨m, rfl, rfl⟩
  | true =>
      rw [div_pos_iff_of_pos_right units_rat_pos, Int.cast_pos,
        signedUnits_true] at ha
      exact absurd ha (by omega)

/-- A product of positive numbers, of which the second is not above one,
is rounded by no more than a small part of it and half of the least
size. -/
theorem exists_mul_near (hx : x.value? = some a) (hy : y.value? = some b)
    (ha : 0 < a) (hb : 0 < b) (hle : b ≤ 1) :
    ∃ c, (x * y).value? = some c
      ∧ |c - a * b| ≤ a * b / 2 ^ 53 + 1 / (2 * Magnitude.unitsPerOne) := by
  obtain ⟨m, rfl, rfl⟩ := exists_of_value?_pos hx ha
  obtain ⟨n, rfl, rfl⟩ := exists_of_value?_pos hy hb
  rw [div_le_one units_rat_pos, Nat.cast_le] at hle
  obtain ⟨p, hp, hnear⟩ := m.exists_mul_near n hle
  exact ⟨_, congrArg value? hp, hnear⟩

end Binary64

-- ================================================================ fading

/-- The opacity of layer `i` where the `n`th one would have none, as exact
or as rounded numbers. -/
def layerOpacity {α : Type} [OfNat α (nat_lit 1)] [Sub α] [Mul α] [Div α]
    (opacity i n : α) : α :=
  opacity * (1 - i / n)

section

variable {o n : ℚ}

theorem layerOpacity_zero (o n : ℚ) : layerOpacity o 0 n = o := by
  unfold layerOpacity
  rw [zero_div, sub_zero, mul_one]

theorem layerOpacity_pos {i : ℚ} (ho : 0 < o) (hn : 0 < n) (hi : i < n) :
    0 < layerOpacity o i n := by
  have hpart : i / n < 1 := (div_lt_one hn).2 hi
  exact mul_pos ho (by linarith)

theorem layerOpacity_lt {i j : ℚ} (ho : 0 < o) (hn : 0 < n) (h : i < j) :
    layerOpacity o j n < layerOpacity o i n := by
  have hparts : i / n < j / n := div_lt_div_of_pos_right h hn
  exact mul_lt_mul_of_pos_left (by linarith) ho

end

namespace Shadow

/-- A deeper blur has no fewer layers. -/
theorem monotone_depth (limit : ℤ) : Monotone (depth limit) := by
  intro b b' hle
  have hceil : ⌈b / 2⌉ ≤ ⌈b' / 2⌉ := Int.ceil_mono (by linarith)
  exact max_le_max_left 1 (min_le_min_left limit hceil)

/-- There are `n` layers, one to six, as many as a finite blur asks for,
and they fade: the opacity of the first is the shadow's own; all are
computed by `layerOpacity`, which for a positive one is positive and gets
less from layer to layer; and what is computed with doubles is that within
the error of rounding. -/
structure Fades (s : Shadow) (n : ℕ) (alpha : ℕ → Binary64) : Prop where
  some_layers : 1 ≤ n
  few_layers : n ≤ 6
  layers : ∀ b : ℚ, s.blur.value? = some b → (n : ℤ) = depth 6 b
  own : alpha 0 = s.opacity
  computed : ∀ i,
    alpha i = layerOpacity s.opacity (.ofNat i) (.ofNat (n + 1))
  exact : ∀ o : ℚ, s.opacity.value? = some o → 0 < o →
    layerOpacity o 0 (n + 1) = o
      ∧ (∀ i < n, 0 < layerOpacity o i (n + 1))
      ∧ ∀ i j : ℕ, i < j →
        layerOpacity o j (n + 1) < layerOpacity o i (n + 1)
  near : ∀ o : ℚ, s.opacity.value? = some o → 0 < o → ∀ i < n,
    ∃ a : ℚ, (alpha i).value? = some a
      ∧ |a - layerOpacity o i (n + 1)|
        ≤ o / 2 ^ 52 + 1 / (2 * Magnitude.unitsPerOne)

/-- The factor of the first layer is one. -/
theorem factor_zero : ∀ n ≤ 6,
    (1 - .ofNat 0 / .ofNat (n + 1) : Binary64) = 1 := by
  decide +kernel

/-- The factors of all layers are near to the exact ones. -/
theorem factor_near : ∀ n : ℕ, n ≤ 6 → ∀ i : ℕ, i < n →
    (1 - .ofNat i / .ofNat (n + 1) : Binary64).value?.any (fun a : ℚ =>
      decide (0 < a ∧ a ≤ 1 ∧ |a - (1 - i / (n + 1))| ≤ 1 / 2 ^ 53))
      = true := by
  decide +kernel

variable (s : Shadow)

/-- The opacity of a layer, with doubles, is near to the exact one: its
factor is off by half a place of one, and so is the product. -/
theorem exists_fade_near {n i : ℕ} {o : ℚ} (hn : n ≤ 6) (hi : i < n)
    (ho : s.opacity.value? = some o) (hpos : 0 < o) :
    ∃ a : ℚ, (s.fade i n).value? = some a
      ∧ |a - layerOpacity o i (n + 1)|
        ≤ o / 2 ^ 52 + 1 / (2 * Magnitude.unitsPerOne) := by
  obtain ⟨f, hf, hfactor⟩ :=
    (Option.any_eq_true _ _).1 (factor_near n hn i hi)
  obtain ⟨hfpos, hfone, hferror⟩ := of_decide_eq_true hfactor
  obtain ⟨a, ha, herror⟩ :=
    Binary64.exists_mul_near ho hf hpos hfpos hfone
  refine ⟨a, ha, ?_⟩
  have hfactor' : |o * f - layerOpacity o i (n + 1)| ≤ o / 2 ^ 53 := by
    rw [layerOpacity, ← mul_sub, abs_mul, abs_of_pos hpos,
      div_eq_mul_one_div o]
    exact mul_le_mul_of_nonneg_left hferror hpos.le
  have hproduct : o * f / 2 ^ 53 ≤ o / 2 ^ 53 :=
    div_le_div_of_nonneg_right (mul_le_of_le_one_right hpos.le hfone)
      (by positivity)
  have hplaces : o / 2 ^ 53 + o / 2 ^ 53 = o / 2 ^ 52 := by ring
  calc |a - layerOpacity o i (n + 1)|
      ≤ |a - o * f| + |o * f - layerOpacity o i (n + 1)| :=
        abs_sub_le a (o * f) _
    _ ≤ o / 2 ^ 52 + 1 / (2 * Magnitude.unitsPerOne) := by linarith

/-- The layers of any shadow fade, if as many as six may be drawn. -/
theorem fades_steps {limit : ℕ} (hlimit : 6 ≤ limit) :
    s.Fades (s.steps limit) (s.fade · (s.steps limit)) := by
  have hfew := s.steps_le_six limit
  refine ⟨s.one_le_steps (by omega), hfew, fun b hb => ?_, ?_,
    fun _ => rfl, fun o _ hpos => ⟨layerOpacity_zero o _, ?_, ?_⟩,
    fun o ho hpos i hi => s.exists_fade_near hfew hi ho hpos⟩
  · have hone : 1 ≤ limit := by omega
    have hsteps := s.steps_eq hone hb
    rwa [min_eq_right (by exact_mod_cast hlimit)] at hsteps
  · show s.opacity * (1 - .ofNat 0 / .ofNat (s.steps limit + 1)) = s.opacity
    rw [factor_zero _ hfew, Binary64.mul_one]
  · intro i hi
    have hlt : (i : ℚ) < s.steps limit := Nat.cast_lt.2 hi
    exact layerOpacity_pos hpos (by positivity) (by linarith)
  · intro i j hij
    exact layerOpacity_lt hpos (by positivity) (Nat.cast_lt.2 hij)

end Shadow

end TimedOverlay
