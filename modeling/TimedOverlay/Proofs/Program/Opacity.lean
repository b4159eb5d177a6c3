/-
From the opacities of a style to those of its drawings.

A style has one opacity for its fill and one for its shadow, and scaling
leaves both (`Content.opacities_scale`). If they are between zero and one,
so is every opacity that is drawn: a fill has its own, lines and letters
have one, and a layer of a shadow has a part of the shadow's, of which
the layers further out have less (`Shadow.inUnit_fade`). Only the fill is
held in that range again when it is drawn; nothing else is.
-/
import TimedOverlay.Component.Scale
import TimedOverlay.Proofs.FilterGraph.Alpha
import TimedOverlay.Proofs.Program.Composition
import TimedOverlay.Proofs.Program.Drawings

namespace TimedOverlay

-- =============================================================== shadows

namespace Shadow

variable (s : Shadow)

theorem steps_le {limit : Nat} (h : 1 ≤ limit) : s.steps limit ≤ limit := by
  unfold steps
  dsimp only
  split
  next => exact h
  next =>
    split
    next => exact Nat.le_refl _
    next hn => exact Nat.not_lt.1 hn

/-- Every layer has a part of the opacity of its shadow. -/
theorem inUnit_fade (h : s.opacity.InUnit) {i limit : Nat}
    (hlimit : 1 ≤ limit ∧ limit < 2 ^ 52) (hi : i < s.steps limit) :
    (s.fade i (s.steps limit)).InUnit := by
  have hsteps := s.steps_le hlimit.1
  have hpart := Binary64.inUnit_ofNat_div (i := i)
    (n := s.steps limit + 1) (by omega) (by omega) (by omega)
  exact h.mul hpart.one_sub

end Shadow

-- ================================================================ styles

section

variable (sx sy : Binary64)

namespace ShapeStyle

/-- The opacities of a shape: that of its fill and that of its shadow. -/
def opacities (s : ShapeStyle) : List Binary64 :=
  s.opacity :: (s.shadow.map Shadow.opacity).toList

theorem opacities_scale (s : ShapeStyle) :
    (s.scale sx sy).opacities = s.opacities := by
  unfold opacities scale
  rw [Option.map_map]
  rfl

end ShapeStyle

namespace TextStyle

/-- The opacities of a text: those of its background and that of its
shadow. -/
def opacities (s : TextStyle) : List Binary64 :=
  (s.background.map ShapeStyle.opacities).getD []
    ++ (s.shadow.map Shadow.opacity).toList

theorem opacities_scale (s : TextStyle) :
    (s.scale sx sy).opacities = s.opacities := by
  have hshape : ShapeStyle.opacities ∘ ShapeStyle.scale sx sy
      = ShapeStyle.opacities :=
    funext fun b => b.opacities_scale sx sy
  unfold opacities scale
  rw [Option.map_map, Option.map_map, hshape]
  rfl

end TextStyle

/-- The opacities of a content; pictures and lines have none. -/
def Content.opacities : Content → List Binary64
  | .rectangle style => style.opacities
  | .circle style => style.opacities
  | .text block => block.style.opacities
  | .picture _ => []
  | .line _ => []

theorem Content.opacities_scale (c : Content) :
    (c.scale sx sy).opacities = c.opacities := by
  cases c with
  | rectangle style => exact style.opacities_scale sx sy
  | circle style => exact style.opacities_scale sx sy
  | text block => exact block.style.opacities_scale sx sy
  | picture picture => rfl
  | line segment => rfl

end

-- ============================================================== drawings

theorem Drawing.blends_fill {opacity : Binary64} (h : opacity.InUnit)
    (r : Rect) (color : Color) :
    (Drawing.box r color (.fill opacity)).Blends := by
  intro x hx
  rwa [← Option.some.inj hx]

theorem Drawing.blends_outline (r : Rect) (color : Color) (n : Int) :
    (Drawing.box r color (.outline n)).Blends := by
  intro x hx
  cases hx

theorem TextBlock.blends_copy (b : TextBlock) (position : Point)
    (size : Size) (dx dy : Int) (color : Color) {opacity : Binary64}
    (h : opacity.InUnit) :
    (b.copy position size dx dy color opacity).Blends := by
  intro x hx
  rwa [← Option.some.inj hx]

/-- A shape draws with the opacities that it has. -/
theorem ShapeStyle.blends_of_mem_drawings (s : ShapeStyle)
    (h : ∀ x ∈ s.opacities, x.InUnit) {r : Rect} {d : Drawing}
    (hd : d ∈ s.drawings r) : d.Blends := by
  obtain ⟨-, hd | hd | hd⟩ := s.mem_drawings.1 hd
  · obtain ⟨shadow, hshadow, i, hi, rfl⟩ := s.mem_shadowDrawings.1 hd
    have hopacity : shadow.opacity.InUnit :=
      h _ (by simp [opacities, hshadow])
    exact Drawing.blends_fill
      (shadow.inUnit_fade hopacity (by decide) hi) _ _
  · obtain ⟨color, -, rfl⟩ := s.mem_fillDrawings.1 hd
    have hopacity : s.opacity.InUnit := h _ (by simp [opacities])
    exact Drawing.blends_fill (Binary64.inUnit_clamp hopacity.ne_nan) _ _
  · obtain ⟨-, rfl⟩ := s.mem_borderDrawings.1 hd
    exact Drawing.blends_outline _ _ _

/-- A text draws with the opacities that it has, and itself with one. -/
theorem TextBlock.blends_of_mem_drawings (b : TextBlock)
    (h : ∀ x ∈ b.style.opacities, x.InUnit) {position : Point}
    {size : Size} {r : Rect} {d : Drawing}
    (hd : d ∈ b.drawings position size r) : d.Blends := by
  rcases b.mem_drawings.1 hd with ⟨background, hbackground, hd⟩ | hd | rfl
  · refine background.blends_of_mem_drawings ?_ hd
    intro x hx
    exact h x (by simp [TextStyle.opacities, hbackground, hx])
  · obtain ⟨shadow, hshadow, i, hi, rfl⟩ := b.mem_shadowDrawings.1 hd
    have hopacity : shadow.opacity.InUnit :=
      h _ (by simp [TextStyle.opacities, hshadow])
    exact b.blends_copy _ _ _ _ _
      (shadow.inUnit_fade hopacity (by decide) hi)
  · exact b.blends_copy _ _ _ _ _ Binary64.inUnit_one

theorem Segment.blends_of_mem_drawings (s : Segment) {d : Drawing}
    (hd : d ∈ s.drawings) : d.Blends := by
  rcases s.mem_drawings.1 hd with ⟨r, -, rfl⟩ | ⟨-, rfl⟩
  · exact Drawing.blends_fill Binary64.inUnit_one _ _
  · intro x hx
    cases hx

/-- A component draws with the opacities of its content. -/
theorem Component.blends_of_mem_drawings (c : Component)
    (h : ∀ x ∈ c.content.opacities, x.InUnit) {d : Drawing}
    (hd : d ∈ c.drawings) : d.Blends := by
  unfold drawings at hd
  generalize c.content = content at h hd
  cases content with
  | rectangle style => exact style.blends_of_mem_drawings h hd
  | circle style => exact style.blends_of_mem_drawings h hd
  | text block => exact block.blends_of_mem_drawings h hd
  | picture picture => cases hd
  | line segment => exact segment.blends_of_mem_drawings hd

/-- A program draws with the opacities of its components. -/
theorem Program.blends_of_mem_compile (duration : Binary64)
    {cs : List Component}
    (h : ∀ c ∈ cs, ∀ x ∈ c.content.opacities, x.InUnit)
    {i : Instruction} (hi : i ∈ (compile duration cs).instructions) :
    i.drawing.Blends := by
  rw [instructions_compile] at hi
  obtain ⟨c, hc, hi⟩ := List.mem_flatMap.1 hi
  obtain ⟨-, hd, -⟩ := c.mem_synthesize.1 hi
  exact c.blends_of_mem_drawings (h c hc) hd

end TimedOverlay
