/-
When a shape has its outline.

A shape has a border if that has any width, and should then be outlined.
What is drawn goes by the pixels of the width, and some widths that are
above zero come to no pixel: those below one half, and one that is not
finite (`Binary64.pixels_pos_iff`). Such a border is faint
(`ShapeStyle.Faint`); a shape is outlined exactly if it has a border that
is not (`Component.outlined_iff`).
-/
import TimedOverlay.Proofs.Program.Gating
import TimedOverlay.Proofs.Program.Proper

namespace TimedOverlay

-- ================================================================ pixels

namespace Binary64

open Magnitude (unitsPerOne unitsPerOne_pos)

/-- One half is half the units of one. -/
theorem exists_half_eq :
    ∃ m : Magnitude, half = .finite false m ∧ 2 * m.units = unitsPerOne :=
  ⟨⟨2 ^ 1073, by decide +kernel⟩, by decide +kernel, by decide +kernel⟩

theorem saturate_pos_iff (n : Int) : 0 < saturate n ↔ 0 < n := by
  unfold saturate
  omega

/-- The whole number nearest to a quotient, a half going up, is positive
exactly if the quotient is not below one half. -/
theorem nearest_pos_iff (units : Nat) {one : Nat} (hone : 0 < one) :
    0 < (2 * units + one) / (2 * one) ↔ one ≤ 2 * units := by
  rw [Nat.div_pos_iff]
  omega

theorem pixels_finite (s : Bool) (m : Magnitude) :
    (finite s m).pixels
      = saturate (if s then
          -((2 * m.units + unitsPerOne) / (2 * unitsPerOne) : Nat)
        else ((2 * m.units + unitsPerOne) / (2 * unitsPerOne) : Nat)) :=
  rfl

/-- A length comes to a pixel exactly if it is finite and not below one
half. -/
theorem pixels_pos_iff (x : Binary64) :
    0 < x.pixels ↔ half.le x = true ∧ x.isFinite = true := by
  have hone := unitsPerOne_pos
  obtain ⟨h, hhalf, hunits⟩ := exists_half_eq
  cases x with
  | nan =>
      exact ⟨fun hpos => absurd hpos (Int.lt_irrefl 0), fun h => nomatch h.2⟩
  | infinite s =>
      exact ⟨fun hpos => absurd hpos (Int.lt_irrefl 0), fun h => nomatch h.2⟩
  | finite s m =>
      rw [hhalf, le_finite, signedUnits_false, pixels_finite,
        saturate_pos_iff]
      cases s with
      | true =>
          rw [if_pos rfl, signedUnits_true]
          constructor
          · intro hpos
            exact absurd hpos (Int.not_lt.2
              (Int.neg_nonpos_of_nonneg (Int.natCast_nonneg _)))
          · rintro ⟨hle, -⟩
            omega
      | false =>
          rw [if_neg nofun, signedUnits_false, Int.natCast_pos,
            nearest_pos_iff _ hone, Int.ofNat_le]
          constructor
          · intro hle
            exact ⟨by omega, rfl⟩
          · rintro ⟨hle, -⟩
            omega

end Binary64

-- ================================================================ shapes

namespace ShapeStyle

/-- There is a border: it has some width. -/
def Bordered (s : ShapeStyle) : Prop :=
  (0 : Binary64).lt s.borderWidth = true

instance (s : ShapeStyle) : Decidable s.Bordered :=
  inferInstanceAs (Decidable (_ = true))

/-- There is a border, but not one that can be drawn: it is less than half
a pixel wide, or its width is not finite. -/
def Faint (s : ShapeStyle) : Prop :=
  s.Bordered
    ∧ (s.borderWidth.lt half = true ∨ s.borderWidth.isFinite = false)

instance (s : ShapeStyle) : Decidable s.Faint :=
  inferInstanceAs (Decidable (_ ∧ _))

/-- The outline is drawn exactly if there is a border that is not
faint. -/
theorem borderWidth_pixels_pos_iff (s : ShapeStyle) :
    0 < s.borderWidth.pixels ↔ s.Bordered ∧ ¬ s.Faint := by
  obtain ⟨h, hhalf, hunits⟩ := Binary64.exists_half_eq
  have hone := Magnitude.unitsPerOne_pos
  rw [Binary64.pixels_pos_iff]
  unfold Faint Bordered
  rw [hhalf]
  cases s.borderWidth with
  | nan =>
      constructor
      · rintro ⟨-, hfinite⟩
        cases hfinite
      · rintro ⟨hpos, -⟩
        rw [Binary64.zero_eq] at hpos
        cases hpos
  | infinite negative =>
      constructor
      · rintro ⟨-, hfinite⟩
        cases hfinite
      · rintro ⟨hpos, hdrawn⟩
        exact absurd ⟨hpos, .inr rfl⟩ hdrawn
  | finite negative m =>
      rw [Binary64.zero_lt_finite, Binary64.le_finite, Binary64.lt_finite,
        Binary64.signedUnits_false]
      cases negative with
      | true =>
          rw [Binary64.signedUnits_true]
          constructor
          · rintro ⟨hwide, -⟩
            omega
          · rintro ⟨⟨hpos, -⟩, -⟩
            cases hpos
      | false =>
          rw [Binary64.signedUnits_false]
          constructor
          · rintro ⟨hwide, -⟩
            refine ⟨⟨rfl, by omega⟩, ?_⟩
            rintro ⟨-, hthin | hfinite⟩
            · omega
            · cases hfinite
          · rintro ⟨hpos, hdrawn⟩
            refine ⟨?_, rfl⟩
            by_contra hthin
            exact hdrawn ⟨hpos, .inl (by omega)⟩

end ShapeStyle

namespace Component

variable {c : Component} {s : ShapeStyle} {color : Color}

/-- A visible rectangle or circle with an area, a solid fill and no shadow
is drawn in each of its windows as its fill and its outline if it has a
border that is not faint, and as its fill alone in every other case. -/
theorem outlined_iff (hvisible : c.visible = true)
    (hcontent : c.content = .rectangle s ∨ c.content = .circle s)
    (hshadow : s.shadow = none) (hfill : s.fill = .solid color)
    (hwidth : 1 ≤ c.size.width.pixels)
    (hheight : 1 ≤ c.size.height.pixels) :
    (c.Draws [.box c.rect color (.fill (s.opacity.clamp 0 1)),
          .box c.rect s.borderColor (.outline s.borderWidth.pixels)]
        ↔ s.Bordered ∧ ¬ s.Faint)
      ∧ (c.Draws [.box c.rect color (.fill (s.opacity.clamp 0 1))]
        ↔ ¬ s.Bordered ∨ s.Faint) := by
  have harea : c.rect.hasArea = true := Rect.hasArea_iff.2 ⟨hwidth, hheight⟩
  have hdrawings : c.drawings
      = .box c.rect color (.fill (s.opacity.clamp 0 1))
        :: s.borderDrawings c.rect := by
    have hkind : c.drawings = s.drawings c.rect := by
      unfold drawings
      rcases hcontent with hc | hc
      · rw [hc]
      · rw [hc]
    rw [hkind, ShapeStyle.drawings, if_pos harea,
      ShapeStyle.shadowDrawings, hshadow, ShapeStyle.fillDrawings, hfill]
    rfl
  have hborder := s.borderWidth_pixels_pos_iff
  rw [draws_iff_of_visible hvisible, draws_iff_of_visible hvisible,
    hdrawings]
  unfold ShapeStyle.borderDrawings
  -- What the two drawings are does not matter from here on.
  generalize Drawing.box c.rect color (.fill (s.opacity.clamp 0 1)) = fill
  generalize Drawing.box c.rect s.borderColor (.outline s.borderWidth.pixels)
    = outline
  by_cases hpixels : 0 < s.borderWidth.pixels
  · obtain ⟨hbordered, hdrawn⟩ := hborder.1 hpixels
    simp [hpixels, hbordered, hdrawn]
  · have hundrawn : ¬ s.Bordered ∨ s.Faint := by
      rwa [hborder, not_and_or, not_not] at hpixels
    rw [if_neg hpixels, ← hborder]
    simp [hpixels, hundrawn]

/-- The standard style with a border of some width. -/
def edging (width : Binary64) : ShapeStyle :=
  { ShapeStyle.standard with borderWidth := width }

def framed (width : Binary64) : Component :=
  { ofContent "framed" (.rectangle (edging width)) with size := ⟨40, 20⟩ }

/-- A border of half a pixel is drawn as one pixel. -/
theorem outlined_iff_half :
    (framed half).Draws [.box ⟨0, 0, 40, 20⟩ .white (.fill 1),
      .box ⟨0, 0, 40, 20⟩ .black (.outline 1)] := by
  have hcontent : (framed half).content = .rectangle (edging half) := rfl
  have hfill : (edging half).fill = .solid .white := rfl
  have hdraws := (outlined_iff rfl (.inl hcontent) rfl hfill
    (by decide +kernel) (by decide +kernel)).1.2 (by decide +kernel)
  have hlist : [Drawing.box (framed half).rect .white
        (.fill ((edging half).opacity.clamp 0 1)),
      .box (framed half).rect (edging half).borderColor
        (.outline (edging half).borderWidth.pixels)]
        = [.box ⟨0, 0, 40, 20⟩ .white (.fill 1),
          .box ⟨0, 0, 40, 20⟩ .black (.outline 1)] := by
    decide +kernel
  rwa [hlist] at hdraws

/-- A border of two fifths of a pixel is left out. -/
theorem outline_missing :
    Binary64.lt 0 (Decimal.mk false 4 (-1)).toBinary64 = true
      ∧ ((framed (Decimal.mk false 4 (-1)).toBinary64).synthesize
          [⟨0, 5⟩]).length = 1 := by
  decide +kernel

end Component

end TimedOverlay
