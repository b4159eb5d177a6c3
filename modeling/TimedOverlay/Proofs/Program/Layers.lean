/-
How a shape is built up.

A shape is drawn from back to front: the layers of its shadow, its fill,
its outline, the last two on its own box. The innermost layer of the
shadow is that box, moved; each next one goes around the one before it,
with one pixel more on every side (`Rect.surrounds_grow`), and is fainter.
So all layers have one center (`Rect.Surrounds.center_eq`). A shape behind
a text is built up in the same way, before the letters
(`Component.draws_shape`).
-/
import TimedOverlay.Proofs.Program.Fading

namespace TimedOverlay

-- ================================================================= boxes

namespace Rect

/-- A box at another place. -/
def moved (r : Rect) (dx dy : Int) : Rect :=
  ⟨r.x + dx, r.y + dy, r.width, r.height⟩

/-- The middle of a box, which may be between two pixels. -/
def center (r : Rect) : ℚ × ℚ := (r.x + r.width / 2, r.y + r.height / 2)

/-- One box goes around another one, with one pixel more at its left, its
top, its right and its bottom. -/
def Surrounds (outer inner : Rect) : Prop :=
  outer.x = inner.x - 1 ∧ outer.y = inner.y - 1
    ∧ outer.x + outer.width = inner.x + inner.width + 1
    ∧ outer.y + outer.height = inner.y + inner.height + 1

instance (outer inner : Rect) : Decidable (outer.Surrounds inner) :=
  inferInstanceAs (Decidable (_ ∧ _ ∧ _ ∧ _))

theorem Surrounds.center_eq {outer inner : Rect}
    (h : outer.Surrounds inner) : outer.center = inner.center := by
  obtain ⟨hleft, htop, hright, hbottom⟩ := h
  have hwidth : outer.width = inner.width + 2 := by omega
  have hheight : outer.height = inner.height + 2 := by omega
  unfold center
  rw [hleft, htop, hwidth, hheight]
  push_cast
  refine Prod.ext ?_ ?_
  · ring
  · ring

variable (r : Rect) (dx dy : Int)

theorem grow_zero : r.grow dx dy (0 : Nat) = r.moved dx dy := by
  unfold grow moved
  simp

theorem surrounds_grow (i : Nat) :
    (r.grow dx dy (i + 1 : Nat)).Surrounds (r.grow dx dy i) := by
  unfold Surrounds grow
  dsimp only
  omega

example : (⟨2, 4, 42, 22⟩ : Rect).Surrounds ⟨3, 5, 40, 20⟩ := by decide

/-- However far a box has grown, its center is where it was. -/
theorem center_grow (i : Nat) :
    (r.grow dx dy i).center = (r.moved dx dy).center := by
  induction i with
  | zero => rw [grow_zero]
  | succ i ih => rw [(r.surrounds_grow dx dy i).center_eq, ih]

end Rect

-- =============================================================== shadows

namespace Shadow

/-- The layers that a shadow throws under a box, the innermost one
first. -/
structure Casts (s : Shadow) (r : Rect) (layers : List Drawing)
    (boxes : ℕ → Rect) (alpha : ℕ → Binary64) : Prop where
  drawn : layers = (List.range layers.length).map fun i =>
    .box (boxes i) s.color (.fill (alpha i))
  first : boxes 0 = r.moved s.offsetX.pixels s.offsetY.pixels
  next : ∀ i, (boxes (i + 1)).Surrounds (boxes i)
  centered : ∀ i,
    (boxes i).center = (r.moved s.offsetX.pixels s.offsetY.pixels).center
  fades : s.Fades layers.length alpha

end Shadow

namespace ShapeStyle

variable (s : ShapeStyle) (r : Rect)

theorem casts_shadowDrawings {shadow : Shadow}
    (h : s.shadow = some shadow) :
    shadow.Casts r (s.shadowDrawings r)
      (fun i => r.grow shadow.offsetX.pixels shadow.offsetY.pixels i)
      (shadow.fade · (shadow.steps shapeShadowLimit)) := by
  have hlayers : s.shadowDrawings r
      = (List.range (shadow.steps shapeShadowLimit)).map fun (i : ℕ) =>
        .box (r.grow shadow.offsetX.pixels shadow.offsetY.pixels (i : ℤ))
          shadow.color
          (.fill (shadow.fade i (shadow.steps shapeShadowLimit))) := by
    unfold shadowDrawings
    rw [h]
  have hlength : (s.shadowDrawings r).length
      = shadow.steps shapeShadowLimit := by
    rw [hlayers, List.length_map, List.length_range]
  constructor
  · rw [hlength]
    exact hlayers
  · exact r.grow_zero _ _
  · exact r.surrounds_grow _ _
  · exact r.center_grow _ _
  · rw [hlength]
    exact shadow.fades_steps (by decide)

theorem drawings_of_hasArea (h : r.hasArea = true) :
    s.drawings r
      = s.shadowDrawings r ++ s.fillDrawings r ++ s.borderDrawings r :=
  if_pos h

end ShapeStyle

-- ============================================================ components

/-- The shape that a component is, or that is behind its text. -/
def Content.shape? : Content → Option ShapeStyle
  | .rectangle style => some style
  | .circle style => some style
  | .text block => block.style.background
  | .picture _ => none
  | .line _ => none

namespace Component

variable {c : Component} {s : ShapeStyle}

/-- A component with a shape draws the shape first. What comes after it
are the letters of a text. -/
theorem drawings_of_shape? (h : c.content.shape? = some s) :
    ∃ letters, c.drawings = s.drawings c.rect ++ letters
      ∧ ((∀ block, c.content ≠ .text block) → letters = [])
      ∧ ∀ d ∈ letters, ∃ text anchor y size color opacity,
        d = .text text anchor y size color opacity := by
  cases hc : c.content with
  | rectangle style | circle style =>
      rw [hc] at h
      obtain rfl := Option.some.inj h
      refine ⟨[], ?_, fun _ => rfl, by simp⟩
      rw [drawings, hc, List.append_nil]
  | text block =>
      rw [hc] at h
      refine ⟨block.shadowDrawings c.position c.size
        ++ [block.copy c.position c.size 0 0 block.style.fontColor 1],
        ?_, fun hne => absurd rfl (hne block), fun d hd => ?_⟩
      · have hback : block.style.background = some s := h
        rw [drawings, hc]
        dsimp only
        rw [TextBlock.drawings, hback, List.append_assoc]
        rfl
      · rw [List.mem_append, List.mem_singleton] at hd
        rcases hd with hd | rfl
        · obtain ⟨_, -, _, -, rfl⟩ := block.mem_shadowDrawings.1 hd
          exact ⟨_, _, _, _, _, _, rfl⟩
        · exact ⟨_, _, _, _, _, _, rfl⟩
  | picture _ => rw [hc] at h; cases h
  | line _ => rw [hc] at h; cases h

/-- A visible rectangle or circle, or what is behind a visible text, is
drawn in each window as the layers of its shadow, its fill and its
outline, on a box that is a pixel wide and high or more. There are layers
exactly if there is a shadow, and six at most; they go around each other
from the moved box on, and fade. There is a fill exactly if it is solid,
and an outline exactly if the border has a pixel or more, both on the box
itself. What follows are the letters of a text, if it is one. A shadow
with a deeper blur has no fewer layers. -/
theorem draws_shape (hvisible : c.visible = true)
    (hshape : c.content.shape? = some s)
    (hwidth : 1 ≤ c.size.width.pixels)
    (hheight : 1 ≤ c.size.height.pixels) :
    ∃ layers fill outline letters,
      c.Draws (layers ++ fill ++ outline ++ letters)
        ∧ (s.shadow = none → layers = [])
        ∧ (∀ shadow, s.shadow = some shadow →
          ∃ boxes alpha, shadow.Casts c.rect layers boxes alpha)
        ∧ (s.fill = .transparent → fill = [])
        ∧ (∀ color, s.fill = .solid color →
          fill = [.box c.rect color (.fill (s.opacity.clamp 0 1))])
        ∧ (s.borderWidth.pixels ≤ 0 → outline = [])
        ∧ (0 < s.borderWidth.pixels →
          outline
            = [.box c.rect s.borderColor (.outline s.borderWidth.pixels)])
        ∧ ((∀ block, c.content ≠ .text block) → letters = [])
        ∧ (∀ d ∈ letters, ∃ text anchor y size color opacity,
          d = .text text anchor y size color opacity)
        ∧ Monotone (Shadow.depth 6) := by
  obtain ⟨letters, hdrawings, hnone, htexts⟩ := drawings_of_shape? hshape
  have harea : c.rect.hasArea = true := Rect.hasArea_iff.2 ⟨hwidth, hheight⟩
  refine ⟨s.shadowDrawings c.rect, s.fillDrawings c.rect,
    s.borderDrawings c.rect, letters, ?_, ?_, ?_, ?_, ?_, ?_, ?_, hnone,
    htexts, Shadow.monotone_depth 6⟩
  · rw [draws_iff_of_visible hvisible, hdrawings,
      s.drawings_of_hasArea c.rect harea]
  · exact (s.shadowDrawings_eq_nil_iff c.rect).2
  · intro shadow hshadow
    exact ⟨_, _, s.casts_shadowDrawings c.rect hshadow⟩
  · exact (s.fillDrawings_eq_nil_iff c.rect).2
  · intro color hfill
    rw [ShapeStyle.fillDrawings, hfill]
  · exact (s.borderDrawings_eq_nil_iff c.rect).2
  · exact fun hborder => if_pos hborder

/-- The standard style with a shadow below it and to its right. -/
def raisedShadow : Shadow :=
  { Shadow.standard with offsetX := 3, offsetY := 5 }

def raisedStyle : ShapeStyle :=
  { ShapeStyle.standard with shadow := some raisedShadow }

def raised : Component :=
  { ofContent "raised" (.rectangle raisedStyle) with size := ⟨40, 20⟩ }

/-- A blur of four pixels has two layers, the first of which is the box
itself, moved. -/
theorem draws_shape_raised :
    ∃ layers,
      raised.Draws (layers ++ [.box ⟨0, 0, 40, 20⟩ .white (.fill 1)]
          ++ [.box ⟨0, 0, 40, 20⟩ .black (.outline 1)])
        ∧ layers.length = 2
        ∧ ∃ boxes alpha, raisedShadow.Casts ⟨0, 0, 40, 20⟩ layers boxes alpha
          ∧ boxes 0 = ⟨3, 5, 40, 20⟩ ∧ alpha 0 = half := by
  have hrect : raised.rect = ⟨0, 0, 40, 20⟩ := by decide +kernel
  have hopaque : raisedStyle.opacity.clamp 0 1 = 1 := by decide +kernel
  have hborder : raisedStyle.borderWidth.pixels = 1 := by decide +kernel
  have hoffset : (⟨0, 0, 40, 20⟩ : Rect).moved raisedShadow.offsetX.pixels
      raisedShadow.offsetY.pixels = ⟨3, 5, 40, 20⟩ := by
    decide +kernel
  have hshape : raised.content.shape? = some raisedStyle := rfl
  have hopacity : raisedShadow.opacity = half := by decide +kernel
  have hblur : raisedShadow.blur.value? = some 4 := by
    have hfour : raisedShadow.blur = .ofNat 4 := by decide +kernel
    rw [hfour, Binary64.value?_ofNat (by decide), Nat.cast_ofNat]
  have hdepth : Shadow.depth 6 4 = 2 := by
    norm_num [Shadow.depth]
  obtain ⟨layers, fill, outline, letters, hdraws, -, hshadow, -, hfill, -,
      houtline, hletters, -, -⟩ :=
    draws_shape rfl hshape (by decide +kernel) (by decide +kernel)
  obtain ⟨boxes, alpha, hcasts⟩ := hshadow raisedShadow rfl
  have hplain : letters = [] := by
    refine hletters fun block hblock => ?_
    cases hblock
  rw [hfill .white rfl, houtline (by omega), hplain, List.append_nil, hrect,
    hopaque, hborder] at hdraws
  rw [hrect] at hcasts
  refine ⟨layers, hdraws, ?_, boxes, alpha, hcasts, ?_,
    hcasts.fades.own.trans hopacity⟩
  · have := hcasts.fades.layers 4 hblur
    omega
  · rw [hcasts.first, hoffset]

end Component

end TimedOverlay
