/-
When nothing is drawn.

A component is inert if it is hidden, if there is no time at which it is
shown, or if its content leaves no mark on its box
(`Component.Inert`). The condition is said of what a component is made
of: the pixels of its lengths, its shadow, its fill. It does not mention
how anything is drawn.

That inert components are exactly those without instructions is found
kind by kind (`Component.drawings_eq_nil_iff`). A program is the
instructions of its components, so it passes the streams through exactly
if all of them are inert, and lists that differ in inert components only
have the same program (`Program.compile_passthrough_iff`).
-/
import TimedOverlay.Engine.Command
import TimedOverlay.Proofs.Program.Composition
import TimedOverlay.Proofs.Program.Proper
import TimedOverlay.Proofs.Program.Windows

namespace TimedOverlay

-- ====================================================== inert components

/-- Nothing of a shape can be seen: it has no shadow, no fill, and no
border that is a pixel wide. -/
def ShapeStyle.Blank (s : ShapeStyle) : Prop :=
  s.shadow = none ∧ s.fill = .transparent ∧ s.borderWidth.pixels ≤ 0

instance (s : ShapeStyle) : Decidable s.Blank :=
  inferInstanceAs (Decidable (_ ∧ _ ∧ _))

/-- A content that leaves no mark on a box of this size. -/
def Content.Blank (size : Size) : Content → Prop
  | .rectangle style | .circle style =>
    size.width.pixels ≤ 0 ∨ size.height.pixels ≤ 0 ∨ style.Blank
  | .picture _ => True
  | .text _ | .line _ => False

instance (size : Size) (c : Content) : Decidable (c.Blank size) :=
  match c with
  | .rectangle _ | .circle _ => inferInstanceAs (Decidable (_ ∨ _ ∨ _))
  | .picture _ => inferInstanceAs (Decidable True)
  | .text _ | .line _ => inferInstanceAs (Decidable False)

/-- A component of which nothing is ever seen. -/
def Component.Inert (c : Component) : Prop :=
  c.visible = false ∨ c.timestamps = [] ∨ c.content.Blank c.size

instance (c : Component) : Decidable c.Inert :=
  inferInstanceAs (Decidable (_ ∨ _ ∨ _))

-- ================================================================ shapes

/-- A shadow has a layer, if only one. -/
theorem Shadow.one_le_steps (s : Shadow) {limit : Nat} (h : 1 ≤ limit) :
    1 ≤ s.steps limit := by
  unfold steps
  dsimp only
  split
  next => exact Nat.le_refl 1
  next hn =>
    split
    next => exact h
    next => omega

namespace ShapeStyle

variable (s : ShapeStyle) (r : Rect)

theorem shadowDrawings_eq_nil_iff :
    s.shadowDrawings r = [] ↔ s.shadow = none := by
  unfold shadowDrawings
  cases hs : s.shadow with
  | none => simp
  | some shadow =>
      have hsteps : 1 ≤ shadow.steps shapeShadowLimit :=
        shadow.one_le_steps (by decide)
      simp only [List.map_eq_nil_iff, List.range_eq_nil, reduceCtorEq,
        iff_false]
      omega

theorem fillDrawings_eq_nil_iff :
    s.fillDrawings r = [] ↔ s.fill = .transparent := by
  unfold fillDrawings
  cases s.fill with
  | solid color => simp
  | transparent => simp

theorem borderDrawings_eq_nil_iff :
    s.borderDrawings r = [] ↔ s.borderWidth.pixels ≤ 0 := by
  unfold borderDrawings
  by_cases hwidth : 0 < s.borderWidth.pixels
  · rw [if_pos hwidth]
    simp only [List.cons_ne_nil, false_iff]
    omega
  · rw [if_neg hwidth]
    simp only [true_iff]
    omega

/-- A shape draws nothing on a box without area, and nothing if nothing
of it can be seen. -/
theorem drawings_eq_nil_iff :
    s.drawings r = [] ↔ r.width ≤ 0 ∨ r.height ≤ 0 ∨ s.Blank := by
  unfold drawings
  by_cases harea : r.hasArea = true
  · obtain ⟨hwidth, hheight⟩ := Rect.hasArea_iff.1 harea
    have hparts : s.shadowDrawings r ++ s.fillDrawings r
        ++ s.borderDrawings r = [] ↔ s.Blank := by
      rw [List.append_eq_nil_iff, List.append_eq_nil_iff,
        shadowDrawings_eq_nil_iff, fillDrawings_eq_nil_iff,
        borderDrawings_eq_nil_iff, and_assoc]
      rfl
    rw [if_pos harea, hparts]
    constructor
    · intro hblank
      exact .inr (.inr hblank)
    · rintro (hle | hle | hblank)
      · omega
      · omega
      · exact hblank
  · rw [if_neg harea]
    rw [Rect.hasArea_iff] at harea
    simp only [true_iff]
    omega

end ShapeStyle

-- ============================================================ components

/-- A text draws itself last, whatever stands before it. -/
theorem TextBlock.drawings_ne_nil (b : TextBlock) (position : Point)
    (size : Size) (r : Rect) : b.drawings position size r ≠ [] := by
  unfold drawings
  intro hnil
  exact List.cons_ne_nil _ _ (List.append_eq_nil_iff.1 hnil).2

/-- A line is drawn, as a box or as a line. -/
theorem Segment.drawings_ne_nil (s : Segment) : s.drawings ≠ [] := by
  unfold drawings
  cases s.rect? with
  | some r => exact List.cons_ne_nil _ _
  | none => exact List.cons_ne_nil _ _

namespace Component

variable (c : Component)

theorem drawings_eq_nil_iff : c.drawings = [] ↔ c.content.Blank c.size := by
  unfold drawings
  cases c.content with
  | rectangle style => exact style.drawings_eq_nil_iff c.rect
  | circle style => exact style.drawings_eq_nil_iff c.rect
  | text block =>
      exact iff_of_false (block.drawings_ne_nil _ _ _) fun h => h
  | picture picture => exact iff_of_true rfl trivial
  | line segment =>
      exact iff_of_false segment.drawings_ne_nil fun h => h

theorem synthesize_eq_nil_iff (ws : List Window) :
    c.synthesize ws = []
      ↔ c.visible = false ∨ ws = [] ∨ c.drawings = [] := by
  rw [synthesize_eq_flatMap_group]
  cases c.visible with
  | false => simp
  | true =>
      rw [if_pos rfl, List.flatMap_eq_nil_iff]
      simp only [Bool.true_eq_false, false_or]
      constructor
      · intro hnone
        cases ws with
        | nil => exact .inl rfl
        | cons w rest =>
            have hgroup := hnone w List.mem_cons_self
            exact .inr (List.map_eq_nil_iff.1 hgroup)
      · rintro (rfl | hnil) w hw
        · cases hw
        · unfold group
          rw [hnil, List.map_nil]

/-- The inert components are those without instructions, however long the
video lasts. -/
theorem inert_iff (duration : Binary64) :
    c.Inert ↔ (c.compile duration).instructions = [] := by
  show _ ↔ c.synthesize (Window.resolve duration c.timestamps) = []
  rw [synthesize_eq_nil_iff, Window.resolve_eq_nil_iff, drawings_eq_nil_iff]
  rfl

end Component

-- ============================================================== programs

namespace Program

variable (duration : Binary64)

/-- A program that passes the streams through has no graph, and no
program but this. -/
theorem graph?_eq_none_iff (p : Program) :
    p.graph? = none ↔ p = .passthrough := by
  cases p with
  | passthrough => simp [graph?, instructions]
  | filters first rest => simp [graph?, instructions]

/-- The streams are copied exactly if there is no graph. -/
theorem streamArguments_eq_copy_iff (o : EngineOptions) (p : Program) :
    o.streamArguments p = ["-c", "copy"] ↔ p = .passthrough := by
  rw [← graph?_eq_none_iff]
  unfold EngineOptions.streamArguments
  cases p.graph? with
  | none => simp
  | some graph => simp

theorem instructions_compile_eq_nil_iff (cs : List Component) :
    (compile duration cs).instructions = [] ↔ ∀ c ∈ cs, c.Inert := by
  rw [instructions_compile, List.flatMap_eq_nil_iff]
  constructor
  · intro hnone c hc
    exact (c.inert_iff duration).2 (hnone c hc)
  · intro hinert c hc
    exact (c.inert_iff duration).1 (hinert c hc)

/-- Inert components can be left out. -/
theorem instructions_compile_filter (cs : List Component) :
    (compile duration (cs.filter (¬ ·.Inert))).instructions
      = (compile duration cs).instructions := by
  rw [instructions_compile, instructions_compile]
  induction cs with
  | nil => rfl
  | cons c rest ih =>
      by_cases hinert : c.Inert
      · rw [List.filter_cons_of_neg (by simpa using hinert),
          List.flatMap_cons, (c.inert_iff duration).1 hinert,
          List.nil_append, ih]
      · rw [List.filter_cons_of_pos (by simpa using hinert),
          List.flatMap_cons, List.flatMap_cons, ih]

/-- A program passes the streams through exactly if all its components
are inert; then, and only then, it has no graph and the streams are
copied, and in every other case it has an instruction. Inert components
make no difference: two lists have the same program if they are the same
without them, so any of them can be taken out of a list or put into
it. -/
theorem compile_passthrough_iff (cs : List Component) :
    (compile duration cs = .passthrough ↔ ∀ c ∈ cs, c.Inert)
      ∧ ((compile duration cs).instructions = []
        ↔ compile duration cs = .passthrough)
      ∧ ((compile duration cs).graph? = none
        ↔ compile duration cs = .passthrough)
      ∧ (∀ o : EngineOptions,
        o.streamArguments (compile duration cs) = ["-c", "copy"]
          ↔ compile duration cs = .passthrough)
      ∧ ∀ ds : List Component,
        ds.filter (¬ ·.Inert) = cs.filter (¬ ·.Inert) →
          compile duration ds = compile duration cs := by
  refine ⟨?_, eq_passthrough_iff.symm, graph?_eq_none_iff _,
    fun o => streamArguments_eq_copy_iff o _, ?_⟩
  · rw [eq_passthrough_iff, instructions_compile_eq_nil_iff]
  · intro ds hsame
    rw [← ofInstructions_instructions (compile duration ds),
      ← ofInstructions_instructions (compile duration cs),
      ← instructions_compile_filter duration ds, hsame,
      instructions_compile_filter]

/-- A rectangle that is all border, with a border of less than half a
pixel. -/
def frameless : Component :=
  { Component.ofContent "r" (.rectangle
      ⟨.transparent, .black, (Decimal.mk false 4 (-1)).toBinary64, 1, none⟩)
    with
      size := ⟨640, 360⟩
      timestamps := [0, 5] }

/-- A line that is shown for five seconds. -/
def underline : Component :=
  { Component.ofContent "l" (.line .standard) with timestamps := [0, 5] }

/-- A border of less than half a pixel is no reason to encode a video
anew, and in front of a line it makes no difference. -/
theorem compile_passthrough_frameless :
    compile 10 [frameless] = .passthrough
      ∧ [underline].filter (¬ ·.Inert)
        = [frameless, underline].filter (¬ ·.Inert)
      ∧ compile 10 [underline] = compile 10 [frameless, underline] := by
  have hinert : ∀ c ∈ [frameless], c.Inert := by decide +kernel
  have hsame : [underline].filter (¬ ·.Inert)
      = [frameless, underline].filter (¬ ·.Inert) := by decide +kernel
  refine ⟨(compile_passthrough_iff 10 [frameless]).1.2 hinert, hsame, ?_⟩
  exact (compile_passthrough_iff 10 [frameless, underline]).2.2.2.2
    [underline] hsame

end Program

end TimedOverlay
