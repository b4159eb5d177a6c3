/-
No drawing is degenerate.

A box without width or height would be painted over the whole frame, and
a line without extent, an outline without thickness or a text without
height would be nothing at all. `Drawing.Proper` says of a drawing that
it is none of these. Boxes come from four places: a shape, the layers of
its shadow, the background of a text and a line along an axis. Each has
its own reason to be proper, and all that is used of a length is the
pixels it was brought to, so it does not matter what number it was.
Pixels are added as whole numbers, and no sum is out of range.
-/
import TimedOverlay.Proofs.Program.Drawings

namespace TimedOverlay

-- ======================================================= proper drawings

/-- A drawing that covers something, and no more than was meant. -/
def Drawing.Proper : Drawing → Prop
  | .box r _ (.fill _) => 1 ≤ r.width ∧ 1 ≤ r.height
  | .box r _ (.outline thickness) =>
    1 ≤ r.width ∧ 1 ≤ r.height ∧ 1 ≤ thickness
  | .text _ _ _ fontSize _ _ => 1 ≤ fontSize
  | .line startX startY stopX stopY _ thickness =>
    1 ≤ thickness ∧ startX ≠ stopX ∧ startY ≠ stopY

namespace Rect

variable {r : Rect}

theorem hasArea_iff : r.hasArea = true ↔ 1 ≤ r.width ∧ 1 ≤ r.height := by
  unfold hasArea
  rw [Bool.and_eq_true, decide_eq_true_iff, decide_eq_true_iff]
  omega

/-- A box that has grown has area if it had any before. -/
theorem hasArea_grow (h : r.hasArea = true) (dx dy : Int) (n : Nat) :
    (r.grow dx dy n).hasArea = true := by
  rw [hasArea_iff] at h ⊢
  dsimp only [grow]
  omega

end Rect

/-- A filled box is proper if it has any area. -/
theorem Drawing.proper_fill {r : Rect} (h : r.hasArea = true)
    (color : Color) (opacity : Binary64) :
    (Drawing.box r color (.fill opacity)).Proper :=
  Rect.hasArea_iff.1 h

-- ================================================================ shapes

namespace ShapeStyle

variable (s : ShapeStyle) {r : Rect} {d : Drawing}

/-- A shape is drawn on a box that has area, or not at all. -/
theorem proper_of_mem_drawings (hd : d ∈ s.drawings r) : d.Proper := by
  obtain ⟨h, hd | hd | hd⟩ := s.mem_drawings.1 hd
  · obtain ⟨shadow, -, i, -, rfl⟩ := s.mem_shadowDrawings.1 hd
    exact Drawing.proper_fill (Rect.hasArea_grow h _ _ i) _ _
  · obtain ⟨color, -, rfl⟩ := s.mem_fillDrawings.1 hd
    exact Drawing.proper_fill h _ _
  · obtain ⟨hborder, rfl⟩ := s.mem_borderDrawings.1 hd
    obtain ⟨hwidth, hheight⟩ := Rect.hasArea_iff.1 h
    exact ⟨hwidth, hheight, hborder⟩

end ShapeStyle

-- ================================================================= texts

namespace TextBlock

variable (b : TextBlock) (position : Point) (size : Size)

theorem one_le_fontPixels : 1 ≤ b.fontPixels := by
  unfold fontPixels
  dsimp only
  split
  next => exact Int.le_refl 1
  next h => exact Int.not_lt.1 h

/-- Every copy of a text has its height. -/
theorem proper_copy (dx dy : Int) (color : Color) (opacity : Binary64) :
    (b.copy position size dx dy color opacity).Proper :=
  b.one_le_fontPixels

theorem proper_of_mem_drawings {r : Rect} {d : Drawing}
    (hd : d ∈ b.drawings position size r) : d.Proper := by
  rcases b.mem_drawings.1 hd with ⟨background, -, hd⟩ | hd | rfl
  -- The background is a shape, with a reason of its own.
  · exact background.proper_of_mem_drawings hd
  · obtain ⟨shadow, -, i, -, rfl⟩ := b.mem_shadowDrawings.1 hd
    exact b.proper_copy position size _ _ _ _
  · exact b.proper_copy position size _ _ _ _

end TextBlock

-- ================================================================= lines

namespace Segment

variable (s : Segment)

theorem one_le_thickness : 1 ≤ s.thickness := by
  unfold thickness
  dsimp only
  split
  next => exact Int.le_refl 1
  next h => exact Int.not_lt.1 h

/-- The box of a line has area: along the segment it is as long as the
segment or as the line is thick, across it as the line is thick. -/
theorem hasArea_of_rect? {r : Rect} (h : s.rect? = some r) :
    r.hasArea = true := by
  have hthick := s.one_le_thickness
  rw [Rect.hasArea_iff]
  unfold rect? at h
  dsimp only at h
  split at h
  next =>
    cases h
    dsimp only
    omega
  next hy =>
    split at h
    -- A vertical segment has length, or it would be a horizontal one.
    next =>
      cases h
      dsimp only
      omega
    next => cases h

/-- Without a box, the ends differ along both axes. -/
theorem oblique_of_rect? (h : s.rect? = none) :
    s.start.x.pixels ≠ s.stop.x.pixels
      ∧ s.start.y.pixels ≠ s.stop.y.pixels := by
  unfold rect? at h
  dsimp only at h
  split at h
  next => cases h
  next hy =>
    split at h
    next => cases h
    next hx => exact ⟨hx, hy⟩

theorem proper_of_mem_drawings {d : Drawing} (hd : d ∈ s.drawings) :
    d.Proper := by
  rcases s.mem_drawings.1 hd with ⟨r, hr, rfl⟩ | ⟨hr, rfl⟩
  · exact Drawing.proper_fill (s.hasArea_of_rect? hr) _ _
  · exact ⟨s.one_le_thickness, s.oblique_of_rect? hr⟩

end Segment

-- ============================================================ components

namespace Component

variable (c : Component)

theorem proper_of_mem_drawings {d : Drawing} (hd : d ∈ c.drawings) :
    d.Proper := by
  unfold drawings at hd
  cases hc : c.content with
  | rectangle style =>
      rw [hc] at hd
      exact style.proper_of_mem_drawings hd
  | circle style =>
      rw [hc] at hd
      exact style.proper_of_mem_drawings hd
  | text block =>
      rw [hc] at hd
      exact block.proper_of_mem_drawings _ _ hd
  | picture picture =>
      rw [hc] at hd
      cases hd
  | line segment =>
      rw [hc] at hd
      exact segment.proper_of_mem_drawings hd

/-- Whatever numbers a component is made of, nothing that it draws is
degenerate: a box has a width and a height, an outline and a line have a
thickness, a text has a height, and the ends of a line that is no box
differ along both axes. -/
theorem synthesize_proper (ws : List Window) :
    ∀ i ∈ c.synthesize ws, i.drawing.Proper := by
  intro i hi
  obtain ⟨_, hd, _⟩ := c.mem_synthesize.1 hi
  exact c.proper_of_mem_drawings hd

/-- A line between points that are no numbers, with a width that is none
either. -/
def stray : Component :=
  .ofContent "stray" (.line ⟨⟨.nan, .infinite true⟩, ⟨.infinite false, .nan⟩,
    ⟨.white, .nan⟩⟩)

/-- A line that has neither ends nor a width is drawn as a single
pixel. -/
theorem synthesize_proper_stray :
    ⟨.box ⟨0, 0, 1, 1⟩ .white (.fill 1), ⟨.zero, .nan⟩⟩
        ∈ stray.synthesize [⟨.zero, .nan⟩]
      ∧ (Drawing.box ⟨0, 0, 1, 1⟩ .white (.fill 1)).Proper := by
  have hmem : (⟨.box ⟨0, 0, 1, 1⟩ .white (.fill 1), ⟨.zero, .nan⟩⟩
      : Instruction) ∈ stray.synthesize [⟨.zero, .nan⟩] := by
    exact List.mem_singleton.2 rfl
  exact ⟨hmem, stray.synthesize_proper [⟨.zero, .nan⟩] _ hmem⟩

end Component

end TimedOverlay
