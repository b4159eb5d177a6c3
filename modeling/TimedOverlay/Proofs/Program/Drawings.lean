/-
What is among the drawings of a component.

For each part of a shape, a text or a line one statement says what is
drawn, and on which condition. What holds of all drawings is shown by
going through these, and what holds of all instructions by one more:
instructions are drawings in windows (`Component.mem_synthesize`).
-/
import TimedOverlay.Proofs.Program.Pushing

namespace TimedOverlay

variable {d : Drawing}

namespace ShapeStyle

variable (s : ShapeStyle) {r : Rect}

theorem mem_shadowDrawings :
    d ∈ s.shadowDrawings r
      ↔ ∃ shadow, s.shadow = some shadow
        ∧ ∃ i < shadow.steps shapeShadowLimit,
          d = .box (r.grow shadow.offsetX.pixels shadow.offsetY.pixels i)
            shadow.color
            (.fill (shadow.fade i (shadow.steps shapeShadowLimit))) := by
  unfold shadowDrawings
  cases s.shadow with
  | none => simp
  | some shadow => simp [eq_comm]

theorem mem_fillDrawings :
    d ∈ s.fillDrawings r
      ↔ ∃ color, s.fill = .solid color
        ∧ d = .box r color (.fill (s.opacity.clamp 0 1)) := by
  unfold fillDrawings
  cases s.fill with
  | solid color => simp
  | transparent => simp

theorem mem_borderDrawings :
    d ∈ s.borderDrawings r
      ↔ 0 < s.borderWidth.pixels
        ∧ d = .box r s.borderColor (.outline s.borderWidth.pixels) := by
  unfold borderDrawings
  split
  next h => simp [h]
  next h => simp [h]

/-- A shape on a box with area is the layers of its shadow, its fill and
its outline. -/
theorem mem_drawings :
    d ∈ s.drawings r
      ↔ r.hasArea = true
        ∧ (d ∈ s.shadowDrawings r ∨ d ∈ s.fillDrawings r
          ∨ d ∈ s.borderDrawings r) := by
  unfold drawings
  split
  next h => simp [h]
  next h => simp [h]

end ShapeStyle

namespace TextBlock

variable (b : TextBlock) {position : Point} {size : Size} {r : Rect}

theorem mem_shadowDrawings :
    d ∈ b.shadowDrawings position size
      ↔ ∃ shadow, b.style.shadow = some shadow
        ∧ ∃ i < shadow.steps textShadowLimit,
          d = b.copy position size (shadow.offsetX.pixels + spread i)
            (shadow.offsetY.pixels + spread i) shadow.color
            (shadow.fade i (shadow.steps textShadowLimit)) := by
  unfold shadowDrawings
  cases b.style.shadow with
  | none => simp
  | some shadow => simp [eq_comm]

/-- A text on a box is its background, its shadow and itself. -/
theorem mem_drawings :
    d ∈ b.drawings position size r
      ↔ (∃ background, b.style.background = some background
          ∧ d ∈ background.drawings r)
        ∨ d ∈ b.shadowDrawings position size
        ∨ d = b.copy position size 0 0 b.style.fontColor 1 := by
  unfold drawings
  cases b.style.background with
  | none => simp
  | some background => simp

end TextBlock

/-- A line along an axis is a box, any other is itself. -/
theorem Segment.mem_drawings (s : Segment) :
    d ∈ s.drawings
      ↔ (∃ r, s.rect? = some r ∧ d = .box r s.style.color (.fill 1))
        ∨ s.rect? = none
          ∧ d = .line s.start.x.pixels s.start.y.pixels s.stop.x.pixels
            s.stop.y.pixels s.style.color s.thickness := by
  unfold drawings
  cases s.rect? with
  | some r => simp
  | none => simp

/-- The instructions of a component are its drawings, each in each of the
windows, unless it is hidden. -/
theorem Component.mem_synthesize (c : Component) {ws : List Window} {i : Instruction} :
    i ∈ c.synthesize ws
      ↔ c.visible = true ∧ i.drawing ∈ c.drawings ∧ i.window ∈ ws := by
  rw [synthesize_eq_flatMap_group]
  cases c.visible with
  | false => simp
  | true =>
      simp only [if_true, List.mem_flatMap, true_and]
      constructor
      · rintro ⟨w, hw, hi⟩
        obtain ⟨d, hd, rfl⟩ := List.mem_map.1 hi
        exact ⟨hd, hw⟩
      · rintro ⟨hd, hw⟩
        exact ⟨i.window, hw, List.mem_map.2 ⟨i.drawing, hd, rfl⟩⟩

end TimedOverlay
