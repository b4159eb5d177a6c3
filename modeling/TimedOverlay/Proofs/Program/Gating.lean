/-
Gating in time is uniform.

What a routine pushes for a window is the same drawings for every window
(`Component.synthesize_eq_flatMap_group`). So the instructions of a
component are groups, one for each window and in their order, that differ
in nothing but the window they are gated by
(`Component.synthesize_uniform`). No group is large: the blur of a shadow
is held at twelve pixels, which makes six layers at most
(`Shadow.steps_le_six`), for texts as well as for shapes.
-/
import TimedOverlay.Proofs.Binary64.Value
import TimedOverlay.Proofs.Program.Pushing

namespace TimedOverlay

-- =============================================================== shadows

namespace Binary64

theorem clamp_nan (low high : Binary64) : clamp .nan low high = .nan := by
  cases low <;> cases high <;> rfl

theorem nan_div (x : Binary64) : .nan / x = .nan := rfl

end Binary64

/-- A shadow has at most six layers, one for two of the twelve pixels that
a blur is held at. -/
theorem Shadow.steps_le_six (s : Shadow) (limit : Nat) :
    s.steps limit ≤ 6 := by
  have htwelve : blurLimit = .ofNat 12 := rfl
  have htwo : (2 : Binary64) = .ofNat 2 := rfl
  have hhalf : ((s.blur.clamp 0 blurLimit / 2).ceil?.getD 0).toNat ≤ 6 := by
    rcases s.blur.clamp_cases (n := 12) (by decide) with
      hnan | ⟨t, m, hblur, -, hm⟩
    · rw [hnan, Binary64.clamp_nan, Binary64.nan_div]
      exact Nat.zero_le 6
    · rw [htwelve, htwo, hblur]
      exact Binary64.ceil?_div_le (by decide) (by decide) (by decide)
        (by omega)
  unfold steps
  dsimp only
  split
  next => decide
  next =>
    split
    next => omega
    next => exact hhalf

-- ================================================================ lengths

namespace ShapeStyle

variable (s : ShapeStyle) (r : Rect)

theorem length_shadowDrawings_le : (s.shadowDrawings r).length ≤ 6 := by
  unfold shadowDrawings
  cases s.shadow with
  | none => exact Nat.zero_le 6
  | some shadow =>
      rw [List.length_map, List.length_range]
      exact shadow.steps_le_six shapeShadowLimit

theorem length_fillDrawings_le : (s.fillDrawings r).length ≤ 1 := by
  unfold fillDrawings
  cases s.fill with
  | solid color => exact Nat.le_refl 1
  | transparent => exact Nat.zero_le 1

theorem length_borderDrawings_le : (s.borderDrawings r).length ≤ 1 := by
  unfold borderDrawings
  split
  next => exact Nat.le_refl 1
  next => exact Nat.zero_le 1

/-- A shape is its shadow, its fill and its outline. -/
theorem length_drawings_le : (s.drawings r).length ≤ 8 := by
  have hshadow := s.length_shadowDrawings_le r
  have hfill := s.length_fillDrawings_le r
  have hborder := s.length_borderDrawings_le r
  unfold drawings
  split
  next =>
    rw [List.length_append, List.length_append]
    omega
  next => exact Nat.zero_le 8

end ShapeStyle

namespace TextBlock

variable (b : TextBlock) (position : Point) (size : Size)

theorem length_shadowDrawings_le :
    (b.shadowDrawings position size).length ≤ 6 := by
  unfold shadowDrawings
  cases b.style.shadow with
  | none => exact Nat.zero_le 6
  | some shadow =>
      rw [List.length_map, List.length_range]
      exact shadow.steps_le_six textShadowLimit

/-- A text is the shape behind it, its shadow and itself. -/
theorem length_drawings_le (r : Rect) :
    (b.drawings position size r).length ≤ 15 := by
  have hshadow := b.length_shadowDrawings_le position size
  have hbackground :
      ((b.style.background.map (·.drawings r)).getD []).length ≤ 8 := by
    cases b.style.background with
    | none => exact Nat.zero_le 8
    | some background => exact background.length_drawings_le r
  unfold drawings
  rw [List.length_append, List.length_append, List.length_singleton]
  omega

end TextBlock

theorem Segment.length_drawings (s : Segment) : s.drawings.length = 1 := by
  unfold drawings
  cases s.rect? with
  | some r => rfl
  | none => rfl

namespace Component

variable (c : Component)

theorem length_drawings_le : c.drawings.length ≤ 15 := by
  unfold drawings
  cases c.content with
  | rectangle style | circle style =>
      exact Nat.le_trans (style.length_drawings_le c.rect) (by decide)
  | text block => exact block.length_drawings_le c.position c.size c.rect
  | picture picture => exact Nat.zero_le 15
  | line segment =>
      rw [segment.length_drawings]
      decide

-- ================================================================= groups

/-- What a component draws in each of its windows. -/
def shown : List Drawing := if c.visible then c.drawings else []

theorem synthesize_eq_flatMap (ws : List Window) :
    c.synthesize ws = ws.flatMap fun w => c.shown.map (⟨·, w⟩) := by
  rw [synthesize_eq_flatMap_group]
  unfold shown
  cases c.visible with
  | true => rfl
  | false => simp

theorem map_drawing_synthesize (ws : List Window) :
    (c.synthesize ws).map (·.drawing) = ws.flatMap fun _ => c.shown := by
  rw [synthesize_eq_flatMap, List.map_flatMap]
  simp [Function.comp_def]

/-- In each of its windows a component draws these, in this order, and
nothing else. -/
def Draws (ds : List Drawing) : Prop :=
  ∀ ws, c.synthesize ws = ws.flatMap fun w => ds.map (⟨·, w⟩)

theorem draws_iff {ds : List Drawing} : c.Draws ds ↔ c.shown = ds := by
  constructor
  · -- One window tells what is drawn in all.
    intro hdraws
    have hone := congrArg (List.map (·.drawing)) (hdraws [⟨0, 0⟩])
    rw [map_drawing_synthesize] at hone
    simpa [Function.comp_def] using hone
  · rintro rfl
    exact c.synthesize_eq_flatMap

variable {c} in
/-- A visible component draws what it is made of. -/
theorem draws_iff_of_visible (hvisible : c.visible = true)
    {ds : List Drawing} : c.Draws ds ↔ c.drawings = ds := by
  rw [draws_iff, shown, if_pos hvisible]

/-- The instructions of a component are one group for each window, in the
order of the windows. The number of instructions in a group is fixed by
the component and at most fifteen; all of them carry the window of their
group, and groups differ in nothing else. So the instructions for more
windows are those for the first and those for the rest, and exchanging
each window for any other changes the gates and nothing that is drawn. -/
theorem synthesize_uniform :
    ∃ (n : Nat) (group : Window → List Instruction),
      n ≤ 15
        ∧ (∀ ws, c.synthesize ws = ws.flatMap group)
        ∧ (∀ w, (group w).map (·.window) = List.replicate n w)
        ∧ (∀ v w, (group v).map (·.drawing) = (group w).map (·.drawing))
        ∧ (∀ vs ws,
          c.synthesize (vs ++ ws) = c.synthesize vs ++ c.synthesize ws)
        ∧ ∀ pairs : List (Window × Window),
          (c.synthesize (pairs.map (·.1))).map (·.drawing)
            = (c.synthesize (pairs.map (·.2))).map (·.drawing) := by
  have hlength : c.shown.length ≤ 15 := by
    unfold shown
    split
    next => exact c.length_drawings_le
    next => exact Nat.zero_le 15
  have hgates (w : Window) :
      (c.shown.map fun d => (⟨d, w⟩ : Instruction)).map (·.window)
        = List.replicate c.shown.length w := by
    rw [List.map_map]
    exact List.map_const' ..
  refine ⟨c.shown.length, fun w => c.shown.map (⟨·, w⟩), hlength,
    c.synthesize_eq_flatMap, hgates, ?_, ?_, ?_⟩
  · intro v w
    simp [Function.comp_def]
  · intro vs ws
    simp only [synthesize_eq_flatMap, List.flatMap_append]
  · intro pairs
    rw [map_drawing_synthesize, map_drawing_synthesize, List.flatMap_map,
      List.flatMap_map]

/-- Fifteen is reached: by a text with a wide shadow on an outlined box
with a wide shadow. -/
example :
    let shadow : Shadow := { Shadow.ofText with blur := 40 }
    let box : ShapeStyle := { ShapeStyle.standard with shadow := some shadow }
    let style : TextStyle :=
      { TextStyle.standard with background := some box, shadow := some shadow }
    let c : Component :=
      { ofContent "t" (.text ⟨"Text", style⟩) with size := ⟨100, 20⟩ }
    (c.synthesize [⟨0, 5⟩]).length = 15 := by
  decide +kernel

end Component

end TimedOverlay
