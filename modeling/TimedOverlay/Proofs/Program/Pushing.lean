/-
What the routines push.

Each routine leaves what it finds and adds drawings behind it, all of
them gated by the window it was called with. Which ones these are does
not depend on the window: they are the `drawings` of the part the routine
is for. A loop over windows that starts with nothing therefore ends with
one group for each window, in their order
(`Component.synthesize_eq_flatMap_group`). The loops over layers and over
windows are the same induction (`toList_foldl_of_pushes`).
-/
import TimedOverlay.Program.Synthesis

namespace TimedOverlay

variable (w : Window) (out : Array Instruction)

-- ================================================================= loops

/-- A loop pushes what its rounds push, one after the other. -/
theorem toList_foldl_of_pushes {α : Type} {f : Array Instruction → α → Array Instruction}
    {g : α → List Instruction}
    (hround : ∀ out a, (f out a).toList = out.toList ++ g a)
    (as : List α) (out : Array Instruction) :
    (as.foldl f out).toList = out.toList ++ as.flatMap g := by
  induction as generalizing out with
  | nil => rw [List.foldl_nil, List.flatMap_nil, List.append_nil]
  | cons a as ih =>
      rw [List.foldl_cons, ih, hround, List.flatMap_cons, List.append_assoc]

/-- A loop that pushes one drawing a round, all with one window. -/
theorem toList_foldl_push (d : Nat → Drawing) (n : Nat) :
    ((List.range n).foldl (fun out i => out.push ⟨d i, w⟩) out).toList
      = out.toList ++ ((List.range n).map d).map (⟨·, w⟩) := by
  rw [toList_foldl_of_pushes (g := fun i => [⟨d i, w⟩])
    fun out i => Array.toList_push]
  rw [List.map_map, List.map_eq_flatMap]
  rfl

-- ================================================================ shapes

namespace ShapeStyle

variable (s : ShapeStyle) (r : Rect)

theorem toList_pushShadow :
    (s.pushShadow r w out).toList
      = out.toList ++ (s.shadowDrawings r).map (⟨·, w⟩) := by
  unfold pushShadow shadowDrawings
  cases s.shadow with
  | none => exact (List.append_nil _).symm
  | some shadow => exact toList_foldl_push w out _ _

theorem toList_pushFill :
    (s.pushFill r w out).toList
      = out.toList ++ (s.fillDrawings r).map (⟨·, w⟩) := by
  unfold pushFill fillDrawings
  cases s.fill with
  | solid color => exact Array.toList_push
  | transparent => exact (List.append_nil _).symm

theorem toList_pushBorder :
    (s.pushBorder r w out).toList
      = out.toList ++ (s.borderDrawings r).map (⟨·, w⟩) := by
  unfold pushBorder borderDrawings
  dsimp only
  split
  next => exact Array.toList_push
  next => exact (List.append_nil _).symm

variable {r} in
/-- On a box with area, a shape is pushed from back to front. -/
theorem toList_push (harea : r.hasArea = true) :
    (s.push r w out).toList
      = out.toList ++ (s.drawings r).map (⟨·, w⟩) := by
  rw [push, toList_pushBorder, toList_pushFill, toList_pushShadow, drawings,
    if_pos harea, List.map_append, List.map_append, List.append_assoc,
    List.append_assoc, List.append_assoc]

theorem synthesize_eq_flatMap (ws : List Window) :
    s.synthesize r ws = ws.flatMap fun w => (s.drawings r).map (⟨·, w⟩) := by
  unfold synthesize
  split
  next harea =>
    rw [toList_foldl_of_pushes fun out w => s.toList_push w out harea]
    rfl
  next harea => simp [drawings, harea]

end ShapeStyle

-- ================================================================= texts

namespace TextBlock

variable (b : TextBlock) (position : Point) (size : Size) (r : Rect)

theorem toList_pushBackground :
    (b.pushBackground r w out).toList
      = out.toList
        ++ ((b.style.background.map (·.drawings r)).getD []).map (⟨·, w⟩) := by
  unfold pushBackground
  cases b.style.background with
  | none => exact (List.append_nil _).symm
  | some background =>
      dsimp only
      split
      next harea => exact background.toList_push w out harea
      next harea => simp [ShapeStyle.drawings, harea]

theorem toList_pushShadow :
    (b.pushShadow position size w out).toList
      = out.toList ++ (b.shadowDrawings position size).map (⟨·, w⟩) := by
  unfold pushShadow shadowDrawings
  cases b.style.shadow with
  | none => exact (List.append_nil _).symm
  | some shadow => exact toList_foldl_push w out _ _

/-- A text is pushed from back to front. -/
theorem toList_push :
    (b.push position size r w out).toList
      = out.toList ++ (b.drawings position size r).map (⟨·, w⟩) := by
  rw [push, Array.toList_push, toList_pushShadow, toList_pushBackground,
    drawings, List.map_append, List.map_append, List.append_assoc,
    List.append_assoc, List.append_assoc]
  rfl

theorem synthesize_eq_flatMap (ws : List Window) :
    b.synthesize position size r ws
      = ws.flatMap fun w => (b.drawings position size r).map (⟨·, w⟩) := by
  rw [synthesize,
    toList_foldl_of_pushes fun out w => b.toList_push w out position size r]
  rfl

end TextBlock

-- ================================================================= lines

theorem Segment.synthesize_eq_flatMap (s : Segment) (ws : List Window) :
    s.synthesize ws = ws.flatMap fun w => s.drawings.map (⟨·, w⟩) := by
  unfold synthesize drawings
  cases s.rect? with
  | some r => exact List.map_eq_flatMap
  | none => exact List.map_eq_flatMap

-- ============================================================ components

/-- The instructions of a component are one group for each window, in
order, and none if it is hidden. -/
theorem Component.synthesize_eq_flatMap_group (c : Component)
    (ws : List Window) :
    c.synthesize ws = if c.visible then ws.flatMap c.group else [] := by
  unfold synthesize group drawings
  cases c.visible with
  | false => rfl
  | true =>
      cases ws with
      | nil => rfl
      | cons w ws =>
          show (match c.content with | _ => _) = _
          cases c.content with
          | rectangle style => exact style.synthesize_eq_flatMap c.rect _
          | circle style => exact style.synthesize_eq_flatMap c.rect _
          | text block => exact block.synthesize_eq_flatMap _ _ _ _
          | picture picture => simp
          | line segment => exact segment.synthesize_eq_flatMap _

end TimedOverlay
