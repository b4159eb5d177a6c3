/-
How a text is built up.

A text is drawn from back to front: the shape behind it, if there is one
and the box has any area, the copies of the text that are its shadow, and
the text itself, which is opaque. All of these letters are the same but
for their place, color and opacity. The first copy is off the text by just
the offset of the shadow; the others step out from there along a diagonal,
each one pixel farther than the last and to the other side
(`TextBlock.spread_eq`), so that no two of them are at one place, and are
fainter (`Component.draws_text`).
-/
import Mathlib.Algebra.Order.Ring.Abs
import TimedOverlay.Proofs.Program.Fading

namespace TimedOverlay

-- =============================================================== copies

/-- A place moved by some pixels. What it is the place of stays. -/
def Anchor.moved (dx : Int) : Anchor → Anchor
  | .left x => .left (x + dx)
  | .center x => .center (x + dx)
  | .right x => .right (x + dx)

theorem Anchor.moved_injective (a : Anchor) :
    Function.Injective a.moved := by
  intro dx dy h
  cases a with
  | left x | center x | right x =>
      injection h with h
      omega

namespace TextBlock

/-- Copies step out by as many pixels as their number, in turns to either
side. -/
theorem spread_eq (i : Nat) : spread i = (-1) ^ i * i := by
  unfold spread
  split
  next hodd =>
    rw [(Nat.odd_iff.2 hodd).neg_one_pow, neg_one_mul]
  next heven =>
    have heven' : Even i := Nat.even_iff.2 (by omega)
    rw [heven'.neg_one_pow, one_mul]

theorem natAbs_spread (i : Nat) : (spread i).natAbs = i := by
  unfold spread
  split
  next => omega
  next => omega

/-- No two copies step out alike. -/
theorem spread_injective : Function.Injective spread := by
  intro i j h
  rw [← natAbs_spread i, h, natAbs_spread]

variable (b : TextBlock) (position : Point) (size : Size)

theorem anchor_eq_moved (dx : Int) :
    b.anchor position size dx = (b.anchor position size 0).moved dx := by
  unfold anchor
  cases b.style.alignment with
  | left | center | right => simp [Anchor.moved]

end TextBlock

namespace Shadow

/-- The letters that a shadow throws under a text: copies of it that are
moved, have the color of the shadow and fade. -/
structure Copies (s : Shadow) (text : String) (anchor : Anchor) (y : Int)
    (fontSize : Int) (copies : List Drawing) (spread : ℕ → ℤ)
    (alpha : ℕ → Binary64) : Prop where
  drawn : copies = (List.range copies.length).map fun i =>
    .text text (anchor.moved (s.offsetX.pixels + spread i))
      (y + (s.offsetY.pixels + spread i)) fontSize s.color (alpha i)
  steps : ∀ i, spread i = (-1) ^ i * i
  distances : ∀ i, |spread i| = i
  apart : ∀ i j, i ≠ j →
    anchor.moved (s.offsetX.pixels + spread i)
        ≠ anchor.moved (s.offsetX.pixels + spread j)
      ∧ y + (s.offsetY.pixels + spread i) ≠ y + (s.offsetY.pixels + spread j)
  fades : s.Fades copies.length alpha

end Shadow

namespace TextBlock

variable (b : TextBlock) (position : Point) (size : Size)

theorem shadowDrawings_eq_nil (h : b.style.shadow = none) :
    b.shadowDrawings position size = [] := by
  rw [shadowDrawings, h]

theorem copies_shadowDrawings {shadow : Shadow}
    (h : b.style.shadow = some shadow) :
    shadow.Copies b.text (b.anchor position size 0) position.y.pixels
      b.fontPixels (b.shadowDrawings position size) spread
      (shadow.fade · (shadow.steps textShadowLimit)) := by
  have hcopies : b.shadowDrawings position size
      = (List.range (shadow.steps textShadowLimit)).map fun (i : ℕ) =>
        .text b.text ((b.anchor position size 0).moved
            (shadow.offsetX.pixels + spread i))
          (position.y.pixels + (shadow.offsetY.pixels + spread i))
          b.fontPixels shadow.color
          (shadow.fade i (shadow.steps textShadowLimit)) := by
    unfold shadowDrawings copy
    rw [h]
    simp only [← anchor_eq_moved]
  have hlength : (b.shadowDrawings position size).length
      = shadow.steps textShadowLimit := by
    rw [hcopies, List.length_map, List.length_range]
  constructor
  · rw [hlength]
    exact hcopies
  · exact spread_eq
  · intro i
    rw [Int.abs_eq_natAbs, natAbs_spread]
  · intro i j hne
    have hspread : spread i ≠ spread j := fun h => hne (spread_injective h)
    refine ⟨fun h => hspread ?_, by omega⟩
    have := Anchor.moved_injective _ h
    omega
  · rw [hlength]
    exact shadow.fades_steps (by decide)

end TextBlock

-- ============================================================ components

namespace Component

/-- A component of the same place and size that is a rectangle. -/
def backdrop (c : Component) (s : ShapeStyle) : Component :=
  { c with content := .rectangle s }

variable {c : Component} {block : TextBlock}

/-- What is behind a text is what a rectangle of its place, its size and
its background would be. -/
theorem draws_backdrop (hvisible : c.visible = true) (s : ShapeStyle) :
    (c.backdrop s).Draws (s.drawings c.rect) :=
  (draws_iff_of_visible (c := c.backdrop s) hvisible).2 rfl

/-- A visible text is drawn in each window as what is behind it, the copies
that are its shadow and, last of all, itself, which is opaque. What is
behind it is drawn as a rectangle in its place would be, and is nothing
without a background, or on a box less than a pixel wide or high. There
are copies exactly if there is a shadow. They have the text, the height of
its letters and the anchor of its alignment; they are moved by the offset
of the shadow and, to either side in turns, by as many pixels more as
their number, the same in both directions; so no two of them are at one
place. And they fade. -/
theorem draws_text (hvisible : c.visible = true)
    (hcontent : c.content = .text block) :
    ∃ back copies anchor,
      c.Draws (back ++ copies
          ++ [.text block.text anchor c.position.y.pixels block.fontPixels
            block.style.fontColor 1])
        ∧ (block.style.background = none
          ∨ c.size.width.pixels < 1 ∨ c.size.height.pixels < 1 → back = [])
        ∧ (∀ s, block.style.background = some s →
          (c.backdrop s).Draws back)
        ∧ (block.style.alignment = .left →
          anchor = .left c.position.x.pixels)
        ∧ (block.style.alignment = .center →
          anchor = .center (c.position.x + c.size.width / 2).pixels)
        ∧ (block.style.alignment = .right →
          anchor = .right (c.position.x + c.size.width).pixels)
        ∧ (block.style.shadow = none → copies = [])
        ∧ ∀ shadow, block.style.shadow = some shadow →
          ∃ spread alpha,
            shadow.Copies block.text anchor c.position.y.pixels
              block.fontPixels copies spread alpha := by
  refine ⟨(block.style.background.map (·.drawings c.rect)).getD [],
    block.shadowDrawings c.position c.size,
    block.anchor c.position c.size 0, ?_, ?_, ?_, ?_, ?_, ?_, ?_, ?_⟩
  · rw [draws_iff_of_visible hvisible, drawings, hcontent]
    dsimp only
    rw [TextBlock.drawings, TextBlock.copy, Int.add_zero]
  · intro hnone
    cases hback : block.style.background with
    | none => rfl
    | some s =>
        refine (s.drawings_eq_nil_iff c.rect).2 ?_
        rw [hback] at hnone
        rcases hnone with hnone | hwidth | hheight
        · cases hnone
        · exact .inl (Int.lt_add_one_iff.1 hwidth)
        · exact .inr (.inl (Int.lt_add_one_iff.1 hheight))
  · intro s hback
    rw [hback]
    exact draws_backdrop hvisible s
  · intro halign
    simp [TextBlock.anchor, halign]
  · intro halign
    simp [TextBlock.anchor, halign]
  · intro halign
    simp [TextBlock.anchor, halign]
  · exact block.shadowDrawings_eq_nil c.position c.size
  · intro shadow hshadow
    exact ⟨_, _, block.copies_shadowDrawings c.position c.size hshadow⟩

def captionBlock : TextBlock where
  text := "Text"
  style :=
    { TextStyle.standard with
      alignment := .center
      background := some .standard
      shadow := some .ofText }

/-- A text in the middle of a white box. -/
def caption : Component :=
  { ofContent "caption" (.text captionBlock) with size := ⟨100, 20⟩ }

/-- The first copy is two pixels below the text and two to its right. -/
theorem draws_text_caption :
    ∃ back copies,
      caption.Draws (back ++ copies
          ++ [.text "Text" (.center 50) 0 16 .black 1])
        ∧ (caption.backdrop .standard).Draws back
        ∧ ∃ spread alpha,
          Shadow.ofText.Copies "Text" (.center 50) 0 16 copies spread alpha
            ∧ spread 0 = 0 ∧ Shadow.ofText.offsetX.pixels = 2
            ∧ Shadow.ofText.offsetY.pixels = 2 := by
  have hcenter : (caption.position.x + caption.size.width / 2).pixels
      = 50 := by
    decide +kernel
  have hrow : caption.position.y.pixels = 0 := by decide +kernel
  have hletters : captionBlock.fontPixels = 16 := by decide +kernel
  have hcontent : caption.content = .text captionBlock := rfl
  obtain ⟨back, copies, anchor, hdraws, -, hback, -, hanchor, -, -,
      hcopies⟩ := draws_text rfl hcontent
  obtain ⟨spread, alpha, hcopies⟩ := hcopies .ofText rfl
  rw [hanchor rfl, hcenter, hrow, hletters] at hdraws hcopies
  refine ⟨back, copies, hdraws, hback .standard rfl, spread, alpha, hcopies,
    ?_, by decide +kernel, by decide +kernel⟩
  rw [hcopies.steps, Nat.cast_zero, mul_zero]

end Component

end TimedOverlay
