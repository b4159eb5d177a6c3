/-
How deep a shadow is.

A shadow has a layer for each two pixels of its blur, at least one, and no
more than a limit that depends on what casts it: six for a shape, eight
for a text (`Shadow.depth`). Before that, however, the blur itself is held
at twelve pixels, whatever casts the shadow. So the limit of a shape is
just met, and that of a text is out of reach: the depth is that for a
limit of six in either case (`Shadow.steps_eq`), and a text has all the
layers it could have exactly if its blur is at most twelve pixels
(`Component.copies_iff`).
-/
import TimedOverlay.Proofs.Program.Drawings
import TimedOverlay.Proofs.Program.Gating

namespace TimedOverlay

-- =============================================================== layers

namespace Shadow

/-- The layers for a blur of `b` pixels: one for each two pixels that are
begun, at least one and at most `limit`. -/
def depth (limit : ℤ) (b : ℚ) : ℤ := max 1 (min limit ⌈b / 2⌉)

/-- A blur of more than twelve pixels is deeper than six layers. -/
theorem depth_six_eq_depth_eight_iff (b : ℚ) :
    depth 6 b = depth 8 b ↔ b ≤ 12 := by
  have hsix : ⌈b / 2⌉ ≤ 6 ↔ b ≤ 12 := by
    rw [Int.ceil_le, div_le_iff₀ two_pos]
    norm_num
  unfold depth
  rw [← hsix]
  omega

/-- Half of a blur that is held between no and twelve pixels, rounded
up. -/
theorem ceil_held (b : ℚ) :
    ⌈max 0 (min b 12) / 2⌉ = max 0 (min ⌈b / 2⌉ 6) := by
  have hhalf : max 0 (min b 12) / 2 = max 0 (min (b / 2) 6) := by
    have htwo : (0 : ℚ) ≤ 2 := by norm_num
    rw [← max_div_div_right htwo, ← min_div_div_right htwo]
    norm_num
  rw [hhalf, Int.ceil_mono.map_max, Int.ceil_mono.map_min, Int.ceil_zero,
    Int.ceil_ofNat]

theorem value?_blurLimit : blurLimit.value? = some 12 := by
  show (Binary64.ofNat 12).value? = some 12
  rw [Binary64.value?_ofNat (by decide), Nat.cast_ofNat]

variable (s : Shadow) {limit : Nat} {b : ℚ}

/-- The depth of a shadow is the one for its blur, as if six layers were
the limit; if less may be drawn, it is that for the lower limit. -/
theorem steps_eq (hlimit : 1 ≤ limit) (hblur : s.blur.value? = some b) :
    (s.steps limit : ℤ) = depth (min limit 6) b := by
  have hheld : (s.blur.clamp 0 blurLimit).value?
      = some (max 0 (min b 12)) :=
    Binary64.value?_clamp hblur Binary64.value?_zero value?_blurLimit
      (by norm_num)
  have hceil := Binary64.max_ceil?_half hheld
  rw [ceil_held] at hceil
  unfold steps depth
  dsimp only
  split
  next => omega
  next =>
    split
    next => omega
    next => omega

end Shadow

/-- A shape is drawn with boxes. -/
theorem ShapeStyle.box_of_mem_drawings (s : ShapeStyle) {r : Rect}
    {d : Drawing} (hd : d ∈ s.drawings r) :
    ∃ r color style, d = .box r color style := by
  obtain ⟨-, hd | hd | hd⟩ := s.mem_drawings.1 hd
  · obtain ⟨shadow, -, i, -, rfl⟩ := s.mem_shadowDrawings.1 hd
    exact ⟨_, _, _, rfl⟩
  · obtain ⟨color, -, rfl⟩ := s.mem_fillDrawings.1 hd
    exact ⟨_, _, _, rfl⟩
  · obtain ⟨-, rfl⟩ := s.mem_borderDrawings.1 hd
    exact ⟨_, _, _, rfl⟩

-- ============================================================== in texts

namespace Component

variable {c : Component} {block : TextBlock} {shadow : Shadow} {b : ℚ}

/-- In each of its windows, a visible text with a shadow of a finite blur
is drawn as the boxes behind it, copies of it in the color of the shadow
and itself. The copies are as many as a limit of six layers allows. So
they are the layers of a text, of which there may be eight, exactly if
the blur is at most twelve pixels. -/
theorem copies_iff (hvisible : c.visible = true)
    (hcontent : c.content = .text block)
    (hshadow : block.style.shadow = some shadow)
    (hblur : shadow.blur.value? = some b) :
    ∃ back copies,
      c.Draws (back ++ copies
          ++ [block.copy c.position c.size 0 0 block.style.fontColor 1])
        ∧ (∀ d ∈ back, ∃ r color style, d = .box r color style)
        ∧ (∀ d ∈ copies, ∃ i < copies.length, ∃ dx dy,
          d = block.copy c.position c.size dx dy shadow.color
            (shadow.fade i copies.length))
        ∧ (copies.length : ℤ) = Shadow.depth 6 b
        ∧ ((copies.length : ℤ) = Shadow.depth 8 b ↔ b ≤ 12) := by
  have hlength : (block.shadowDrawings c.position c.size).length
      = shadow.steps textShadowLimit := by
    unfold TextBlock.shadowDrawings
    rw [hshadow, List.length_map, List.length_range]
  have hdepth : (shadow.steps textShadowLimit : ℤ) = Shadow.depth 6 b :=
    shadow.steps_eq (by decide) hblur
  refine ⟨(block.style.background.map (·.drawings c.rect)).getD [],
    block.shadowDrawings c.position c.size, ?_, ?_, ?_, ?_, ?_⟩
  · rw [draws_iff_of_visible hvisible, drawings, hcontent]
    rfl
  · intro d hd
    cases hback : block.style.background with
    | none =>
        rw [hback] at hd
        cases hd
    | some background =>
        rw [hback] at hd
        exact background.box_of_mem_drawings hd
  · intro d hd
    obtain ⟨shadow', hshadow', i, hi, rfl⟩ := block.mem_shadowDrawings.1 hd
    obtain rfl := Option.some.inj (hshadow.symm.trans hshadow')
    rw [hlength]
    exact ⟨i, hi, _, _, rfl⟩
  · rw [hlength, hdepth]
  · rw [hlength, hdepth, Shadow.depth_six_eq_depth_eight_iff]

/-- A text with nothing behind it and a shadow of some blur. -/
def hazyText (blur : Binary64) : TextBlock :=
  ⟨"Text", { TextStyle.standard with
    shadow := some { Shadow.ofText with blur := blur } }⟩

def hazy (blur : Binary64) : Component :=
  .ofContent "hazy" (.text (hazyText blur))

/-- A blur of twelve pixels is the widest that is drawn in full. -/
theorem copies_iff_widest :
    ∃ back copies,
      (hazy 12).Draws (back ++ copies
          ++ [.text "Text" (.left 0) 0 16 .black 1])
        ∧ copies.length = 6 ∧ Shadow.depth 8 12 = 6 := by
  have hcontent : (hazy 12).content = .text (hazyText 12) := rfl
  obtain ⟨back, copies, hdraws, -, -, hdepth, hiff⟩ :=
    copies_iff rfl hcontent rfl Shadow.value?_blurLimit
  have hmain : (hazyText 12).copy (hazy 12).position (hazy 12).size 0 0
      (hazyText 12).style.fontColor 1
        = .text "Text" (.left 0) 0 16 .black 1 := by
    decide +kernel
  have hall := hiff.2 (by norm_num)
  have hsix : Shadow.depth 6 12 = 6 := by
    norm_num [Shadow.depth]
  rw [hmain] at hdraws
  exact ⟨back, copies, hdraws, by omega, by omega⟩

/-- A blur of sixteen pixels is meant to have eight layers, and has six,
before the text itself. -/
theorem copies_missing :
    Binary64.value? 16 = some 16 ∧ Shadow.depth 8 16 = 8
      ∧ ((hazy 16).synthesize [⟨0, 5⟩]).length = 6 + 1 := by
  refine ⟨?_, ?_, by decide +kernel⟩
  · show (Binary64.ofNat 16).value? = some 16
    rw [Binary64.value?_ofNat (by decide), Nat.cast_ofNat]
  · norm_num [Shadow.depth]

end Component

end TimedOverlay
