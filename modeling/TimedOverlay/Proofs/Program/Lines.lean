/-
Lines along an axis.

A line is drawn by the pixels of its ends. If these share a row or a
column the line is a box, else it is drawn as what it is. Which of its
ends a line starts at makes no difference, and neither do the place and
size of its component (`Component.undirected`).

A box is meant to be a band along the line: as long as the line, as wide
as the line is thick, with the line in its middle (`Segment.band`). A band
is the same for rows and for columns, with the axes exchanged
(`Segment.band_transpose`). What is drawn in a column is the band, but in
a row it is never shorter than the line is thick. So rows and columns are
drawn alike exactly if a line is not shorter than it is thick
(`Component.alike_iff`). This is said of lines whose band fits into 64
bits, which is when none of the sums overflows that a box is made of.
-/
import TimedOverlay.Proofs.Program.Gating
import TimedOverlay.Proofs.Program.Proper

namespace TimedOverlay

-- ========================================================= exchanged axes

/-- A point with its axes exchanged. -/
def Point.transpose (p : Point) : Point := ⟨p.y, p.x⟩

namespace Rect

/-- A box with its axes exchanged. -/
def transpose (r : Rect) : Rect := ⟨r.y, r.x, r.height, r.width⟩

/-- The numbers of a box are signed numbers of 64 bits. -/
def Fits (r : Rect) : Prop :=
  ∀ n ∈ [r.x, r.y, r.width, r.height], -2 ^ 63 ≤ n ∧ n < 2 ^ 63

instance (r : Rect) : Decidable r.Fits :=
  inferInstanceAs (Decidable (∀ n ∈ _, _))

variable {r : Rect}

theorem fits_transpose : r.transpose.Fits ↔ r.Fits := by
  unfold Fits transpose
  simp only [List.forall_mem_cons]
  tauto

/-- A box that fits still does when it is made as wide as it is high. -/
theorem Fits.widen (h : r.Fits) :
    ({ r with width := max r.width r.height } : Rect).Fits := by
  unfold Fits at h ⊢
  simp only [List.forall_mem_cons, List.not_mem_nil, false_imp_iff,
    implies_true, and_true] at h ⊢
  omega

end Rect

namespace Drawing

/-- The numbers of a drawing that is a box are signed numbers of 64
bits. -/
def Fits : Drawing → Prop
  | .box r _ _ => r.Fits
  | _ => True

/-- A drawing with its axes exchanged, if it is a box or a line; letters
stay upright. -/
def transpose : Drawing → Drawing
  | .box r color style => .box r.transpose color style
  | .line startX startY stopX stopY color thickness =>
    .line startY startX stopY stopX color thickness
  | d => d

/-- A drawing with the ends of a line exchanged. -/
def reverse : Drawing → Drawing
  | .line startX startY stopX stopY color thickness =>
    .line stopX stopY startX startY color thickness
  | d => d

end Drawing

namespace Instruction

/-- An instruction with the axes of its drawing exchanged. -/
def transpose (i : Instruction) : Instruction :=
  { i with drawing := i.drawing.transpose }

/-- An instruction with the ends of its line exchanged. -/
def reverse (i : Instruction) : Instruction :=
  { i with drawing := i.drawing.reverse }

end Instruction

-- ============================================================== segments

namespace Segment

/-- A line with its axes exchanged. -/
def transpose (s : Segment) : Segment :=
  { s with start := s.start.transpose, stop := s.stop.transpose }

/-- A line with its ends exchanged. -/
def reverse (s : Segment) : Segment :=
  { s with start := s.stop, stop := s.start }

variable (s : Segment)

/-- Both ends are in one row. -/
def Level : Prop := s.start.y.pixels = s.stop.y.pixels

/-- Both ends are in one column. -/
def Upright : Prop := s.start.x.pixels = s.stop.x.pixels

instance : Decidable s.Level := inferInstanceAs (Decidable (_ = _))

instance : Decidable s.Upright := inferInstanceAs (Decidable (_ = _))

/-- How far apart the ends are, along the axis along which they are
farther. -/
def extent : Int :=
  max (s.stop.x.pixels - s.start.x.pixels).natAbs
    (s.stop.y.pixels - s.start.y.pixels).natAbs

/-- The box that runs from one end of a line to the other, as wide as the
line is thick, with the line in its middle. -/
def band : Rect :=
  if s.Level then
    ⟨min s.start.x.pixels s.stop.x.pixels,
      s.start.y.pixels - s.thickness / 2, s.extent, s.thickness⟩
  else
    ⟨s.start.x.pixels - s.thickness / 2,
      min s.start.y.pixels s.stop.y.pixels, s.thickness, s.extent⟩

theorem thickness_eq : s.thickness = max 1 s.style.width.pixels := by
  unfold thickness
  dsimp only
  omega

theorem tdiv_thickness : s.thickness.tdiv 2 = s.thickness / 2 :=
  Int.tdiv_eq_ediv_of_nonneg (by have := s.one_le_thickness; omega)

variable {s}

theorem band_of_level (h : s.Level) :
    s.band = ⟨min s.start.x.pixels s.stop.x.pixels,
      s.start.y.pixels - s.thickness / 2, s.extent, s.thickness⟩ :=
  if_pos h

theorem band_of_not_level (h : ¬ s.Level) :
    s.band = ⟨s.start.x.pixels - s.thickness / 2,
      min s.start.y.pixels s.stop.y.pixels, s.thickness, s.extent⟩ :=
  if_neg h

/-- What a line in a row is drawn as: its band, made longer if it is
shorter than the line is thick. -/
theorem rect?_of_level (h : s.Level) :
    s.rect? = some { s.band with width := max s.extent s.thickness } := by
  have hrow : s.start.y.pixels = s.stop.y.pixels := h
  have hextent : s.extent
      = (s.stop.x.pixels - s.start.x.pixels).natAbs := by
    unfold extent
    omega
  rw [rect?, if_pos hrow, band_of_level h, tdiv_thickness, hextent]

/-- A line in a column is drawn as its band, if it has any length. -/
theorem rect?_of_upright (hlevel : ¬ s.Level) (hupright : s.Upright) :
    s.rect? = some s.band := by
  have hcolumn : s.start.x.pixels = s.stop.x.pixels := hupright
  have hrow : ¬ s.start.y.pixels = s.stop.y.pixels := hlevel
  have hextent : s.extent
      = (s.stop.y.pixels - s.start.y.pixels).natAbs := by
    unfold extent
    omega
  rw [rect?, if_neg hrow, if_pos hcolumn, band_of_not_level hlevel,
    tdiv_thickness, hextent]

theorem rect?_of_oblique (hlevel : ¬ s.Level) (hupright : ¬ s.Upright) :
    s.rect? = none := by
  have hcolumn : ¬ s.start.x.pixels = s.stop.x.pixels := hupright
  have hrow : ¬ s.start.y.pixels = s.stop.y.pixels := hlevel
  rw [rect?, if_neg hrow, if_neg hcolumn]

theorem drawings_of_rect? {r : Rect} (h : s.rect? = some r) :
    s.drawings = [.box r s.style.color (.fill 1)] := by
  unfold drawings
  rw [h]

theorem drawings_of_oblique (hlevel : ¬ s.Level) (hupright : ¬ s.Upright) :
    s.drawings = [.line s.start.x.pixels s.start.y.pixels s.stop.x.pixels
      s.stop.y.pixels s.style.color s.thickness] := by
  unfold drawings
  rw [rect?_of_oblique hlevel hupright]

-- ============================================================= exchanges

theorem extent_transpose (s : Segment) : s.transpose.extent = s.extent :=
  max_comm _ _

theorem extent_reverse (s : Segment) : s.reverse.extent = s.extent := by
  show max ((s.start.x.pixels - s.stop.x.pixels).natAbs : Int)
      (s.start.y.pixels - s.stop.y.pixels).natAbs
    = max ((s.stop.x.pixels - s.start.x.pixels).natAbs : Int)
      (s.stop.y.pixels - s.start.y.pixels).natAbs
  omega

/-- A band is the same for rows and for columns. -/
theorem band_transpose (haxis : Xor s.Level s.Upright) :
    s.transpose.band = s.band.transpose := by
  rcases haxis with ⟨hlevel, hupright⟩ | ⟨hupright, hlevel⟩
  · have hcolumn : ¬ s.transpose.Level := hupright
    rw [band_of_not_level hcolumn, band_of_level hlevel, extent_transpose]
    rfl
  · have hrow : s.transpose.Level := hupright
    rw [band_of_level hrow, band_of_not_level hlevel, extent_transpose]
    rfl

/-- A band has no direction. -/
theorem band_reverse (haxis : s.Level ∨ s.Upright) :
    s.reverse.band = s.band := by
  by_cases hlevel : s.Level
  · have hback : s.reverse.Level := hlevel.symm
    have hrow : s.stop.y.pixels = s.start.y.pixels := hback
    rw [band_of_level hback, band_of_level hlevel, extent_reverse,
      min_comm s.start.x.pixels, ← hrow]
    rfl
  · have hback : ¬ s.reverse.Level := fun h => hlevel h.symm
    have hcolumn : s.start.x.pixels = s.stop.x.pixels :=
      haxis.resolve_left hlevel
    rw [band_of_not_level hback, band_of_not_level hlevel, extent_reverse,
      min_comm s.start.y.pixels, hcolumn]
    rfl

/-- Drawn from its other end a line has the same box, if any. -/
theorem rect?_reverse (s : Segment) : s.reverse.rect? = s.rect? := by
  by_cases hlevel : s.Level
  · have hback : s.reverse.Level := hlevel.symm
    rw [rect?_of_level hback, rect?_of_level hlevel,
      band_reverse (.inl hlevel), extent_reverse]
    rfl
  · have hback : ¬ s.reverse.Level := fun h => hlevel h.symm
    by_cases hupright : s.Upright
    · rw [rect?_of_upright hback hupright.symm,
        rect?_of_upright hlevel hupright, band_reverse (.inr hupright)]
    · have hupback : ¬ s.reverse.Upright := fun h => hupright h.symm
      rw [rect?_of_oblique hback hupback, rect?_of_oblique hlevel hupright]

/-- Drawn from its other end a line is what it was before, but for the
ends of one that is no box. -/
theorem drawings_reverse (s : Segment) :
    s.reverse.drawings = s.drawings.map Drawing.reverse := by
  unfold drawings
  rw [rect?_reverse]
  cases s.rect? with
  | some r => rfl
  | none => rfl

theorem drawings_reverse_of_axis (haxis : s.Level ∨ s.Upright) :
    s.reverse.drawings = s.drawings := by
  obtain ⟨r, hrect⟩ : ∃ r, s.rect? = some r := by
    by_cases hlevel : s.Level
    · exact ⟨_, rect?_of_level hlevel⟩
    · exact ⟨_, rect?_of_upright hlevel (haxis.resolve_left hlevel)⟩
  rw [drawings_reverse, drawings_of_rect? hrect]
  rfl

/-- What is drawn of a line along an axis fits if its band does. -/
theorem fits_of_mem_drawings (haxis : s.Level ∨ s.Upright)
    (hfits : s.band.Fits) {d : Drawing} (hd : d ∈ s.drawings) : d.Fits := by
  by_cases hlevel : s.Level
  · rw [drawings_of_rect? (rect?_of_level hlevel), List.mem_singleton] at hd
    subst hd
    show Rect.Fits _
    rw [band_of_level hlevel] at hfits ⊢
    exact hfits.widen
  · rw [drawings_of_rect?
      (rect?_of_upright hlevel (haxis.resolve_left hlevel)),
      List.mem_singleton] at hd
    subst hd
    exact hfits

theorem singleton_box_inj {r r' : Rect} {color : Color}
    {style : BoxStyle} :
    [Drawing.box r color style] = [.box r' color style] ↔ r = r' := by
  simp

/-- A line in a row and the same line in a column are drawn alike exactly
if they are not shorter than they are thick. -/
theorem drawings_transpose_iff (haxis : Xor s.Level s.Upright) :
    s.transpose.drawings = s.drawings.map Drawing.transpose
      ↔ s.thickness ≤ s.extent := by
  have hband := band_transpose haxis
  rcases haxis with ⟨hlevel, hupright⟩ | ⟨hupright, hlevel⟩
  · have hcolumn : ¬ s.transpose.Level := hupright
    rw [drawings_of_rect? (rect?_of_upright hcolumn hlevel),
      drawings_of_rect? (rect?_of_level hlevel), hband,
      band_of_level hlevel]
    refine singleton_box_inj.trans ?_
    simp only [Rect.transpose, Rect.mk.injEq, true_and]
    omega
  · have hrow : s.transpose.Level := hupright
    rw [drawings_of_rect? (rect?_of_level hrow),
      drawings_of_rect? (rect?_of_upright hlevel hupright), hband,
      extent_transpose, band_of_not_level hlevel]
    refine singleton_box_inj.trans ?_
    have hthick : s.transpose.thickness = s.thickness := rfl
    simp only [Rect.transpose, Rect.mk.injEq, true_and, and_true, hthick]
    omega

end Segment

-- =================================================================== rows

/-- The box of a line of some thickness in a row: it starts at the end
that is farther to the left, reaches the other end at least, and covers
the row. -/
structure Rect.Spans (r : Rect) (startX stopX row thickness : Int) :
    Prop where
  starts : r.x = min startX stopX
  reaches : max startX stopX ≤ r.x + r.width
  thick : r.height = thickness
  above : r.y ≤ row
  below : row < r.y + r.height

namespace Segment

variable {s : Segment} {r : Rect}

theorem spans_of_level (hlevel : s.Level) (hrect : s.rect? = some r) :
    r.Spans s.start.x.pixels s.stop.x.pixels s.start.y.pixels
      (max 1 s.style.width.pixels) := by
  have hthick := s.one_le_thickness
  rw [rect?_of_level hlevel, band_of_level hlevel] at hrect
  obtain rfl := Option.some.inj hrect
  rw [← thickness_eq]
  refine ⟨rfl, ?_, rfl, ?_, ?_⟩
  · dsimp only
    unfold extent
    omega
  · dsimp only
    omega
  · dsimp only
    omega

/-- A line in a column is one in a row with the axes exchanged. -/
theorem spans_of_upright (hlevel : ¬ s.Level) (hupright : s.Upright)
    (hrect : s.rect? = some r) :
    r.transpose.Spans s.start.y.pixels s.stop.y.pixels s.start.x.pixels
      (max 1 s.style.width.pixels) := by
  have hthick := s.one_le_thickness
  rw [rect?_of_upright hlevel hupright, band_of_not_level hlevel] at hrect
  obtain rfl := Option.some.inj hrect
  rw [← thickness_eq]
  refine ⟨rfl, ?_, rfl, ?_, ?_⟩
  · dsimp only [Rect.transpose]
    unfold extent
    omega
  · dsimp only [Rect.transpose]
    omega
  · dsimp only [Rect.transpose]
    omega

end Segment

-- ============================================================ components

namespace Component

variable {c d : Component} {s : Segment}

theorem shown_of_line (hcontent : c.content = .line s) :
    c.shown = if c.visible then s.drawings else [] := by
  unfold shown drawings
  rw [hcontent]

theorem draws_iff_of_line (hcontent : c.content = .line s)
    (hvisible : c.visible = true) {ds : List Drawing} :
    c.Draws ds ↔ s.drawings = ds := by
  rw [draws_iff, shown_of_line hcontent, if_pos hvisible]

/-- To change every instruction is to change what is drawn in each
window. -/
theorem synthesize_eq_map_iff {f : Drawing → Drawing} :
    (∀ ws, d.synthesize ws
        = (c.synthesize ws).map fun i => { i with drawing := f i.drawing })
      ↔ d.shown = c.shown.map f := by
  have hmap (ws : List Window) :
      ((c.synthesize ws).map fun i => { i with drawing := f i.drawing })
        = ws.flatMap fun w => (c.shown.map f).map (⟨·, w⟩) := by
    rw [synthesize_eq_flatMap, List.map_flatMap]
    simp only [List.map_map, Function.comp_def]
  simp only [hmap]
  exact d.draws_iff

/-- Every drawing of a line along an axis fits if the band of the line
does. -/
theorem fits_of_mem_synthesize (hcontent : c.content = .line s)
    (haxis : s.Level ∨ s.Upright) (hfits : s.band.Fits) {ws : List Window}
    {i : Instruction} (hi : i ∈ c.synthesize ws) : i.drawing.Fits := by
  obtain ⟨-, hd, -⟩ := c.mem_synthesize.1 hi
  unfold drawings at hd
  rw [hcontent] at hd
  exact Segment.fits_of_mem_drawings haxis hfits hd

/-- Let a line lie in a row or in a column, and let its band fit into 64
bits. Exchanging the axes of the line exchanges those of all that is
drawn, and changes nothing else, exactly if the line is hidden or not
shorter than it is thick. In a column the band along the line is drawn;
in a row it is, too, but made as long as the line is thick if it is
shorter. Both ways round, all that is drawn fits. -/
theorem alike_iff (hcontent : c.content = .line s)
    (haxis : Xor s.Level s.Upright) (hfits : s.band.Fits) :
    ((∀ ws,
          { c with content := .line s.transpose : Component }.synthesize ws
            = (c.synthesize ws).map Instruction.transpose)
        ↔ (c.visible = true → s.thickness ≤ s.extent))
      ∧ (c.visible = true → s.Upright →
        c.Draws [.box s.band s.style.color (.fill 1)])
      ∧ (c.visible = true → s.Level →
        c.Draws [.box { s.band with width := max s.extent s.thickness }
          s.style.color (.fill 1)])
      ∧ ∀ ws,
        (∀ i ∈ c.synthesize ws, i.drawing.Fits)
          ∧ ∀ i ∈ { c with
              content := .line s.transpose : Component }.synthesize ws,
            i.drawing.Fits := by
  refine ⟨?_, ?_, ?_, ?_⟩
  · refine synthesize_eq_map_iff.trans ?_
    have hturned :
        ({ c with content := .line s.transpose } : Component).shown
          = if c.visible then s.transpose.drawings else [] :=
      shown_of_line rfl
    rw [hturned, shown_of_line hcontent]
    cases hvisible : c.visible with
    | false => simp
    | true =>
        rw [if_pos rfl, if_pos rfl, Segment.drawings_transpose_iff haxis]
        exact ⟨fun h _ => h, fun h => h rfl⟩
  · intro hvisible hupright
    have hlevel : ¬ s.Level := by
      rcases haxis with ⟨-, hslanted⟩ | ⟨-, hlevel⟩
      · exact absurd hupright hslanted
      · exact hlevel
    rw [draws_iff_of_line hcontent hvisible]
    exact Segment.drawings_of_rect? (Segment.rect?_of_upright hlevel hupright)
  · intro hvisible hlevel
    rw [draws_iff_of_line hcontent hvisible]
    exact Segment.drawings_of_rect? (Segment.rect?_of_level hlevel)
  · intro ws
    have hturned : s.transpose.band.Fits := by
      rw [Segment.band_transpose haxis]
      exact Rect.fits_transpose.2 hfits
    exact ⟨fun i hi => fits_of_mem_synthesize hcontent haxis.or hfits hi,
      fun i hi => fits_of_mem_synthesize (s := s.transpose) rfl
        haxis.or.symm hturned hi⟩

/-- A line of two pixels in a row, ten pixels thick. -/
def stub : Segment := ⟨⟨10, 20⟩, ⟨12, 20⟩, ⟨.white, 10⟩⟩

/-- A line in a row that is a hundred pixels long and four thick. -/
def ruler : Segment := ⟨⟨100, 5⟩, ⟨0, 5⟩, ⟨.white, 4⟩⟩

/-- A line that is longer than thick is a band in a row and in a
column. -/
theorem alike_iff_ruler :
    (∀ ws, (ofContent "ruler" (.line ruler.transpose)).synthesize ws
        = ((ofContent "ruler" (.line ruler)).synthesize ws).map
            Instruction.transpose)
      ∧ (ofContent "ruler" (.line ruler)).Draws
          [.box ⟨0, 3, 100, 4⟩ .white (.fill 1)] := by
  have hfits : ruler.band.Fits := by decide +kernel
  have hcontent : (ofContent "ruler" (.line ruler)).content = .line ruler :=
    rfl
  have hlevel : ruler.Level := by decide +kernel
  have hslanted : ¬ ruler.Upright := by decide +kernel
  obtain ⟨hturned, -, hrow, -⟩ :=
    alike_iff hcontent (.inl ⟨hlevel, hslanted⟩) hfits
  have hband : { ruler.band with width := max ruler.extent ruler.thickness }
      = (⟨0, 3, 100, 4⟩ : Rect) := by
    decide +kernel
  refine ⟨hturned.2 fun _ => by decide +kernel, ?_⟩
  rw [← hband]
  exact hrow rfl hlevel

/-- A line of two pixels is as long as it is thick in a row, and two
pixels long in a column. -/
theorem stub_lengthened :
    (ofContent "stub" (.line stub)).synthesize [⟨0, 5⟩]
        = [⟨.box ⟨10, 15, 10, 10⟩ .white (.fill 1), ⟨0, 5⟩⟩]
      ∧ (ofContent "stub" (.line stub.transpose)).synthesize [⟨0, 5⟩]
        = [⟨.box ⟨15, 10, 10, 2⟩ .white (.fill 1), ⟨0, 5⟩⟩]
      ∧ (ofContent "stub" (.line stub.transpose)).synthesize [⟨0, 5⟩]
        ≠ ((ofContent "stub" (.line stub)).synthesize [⟨0, 5⟩]).map
            Instruction.transpose := by
  decide +kernel

/-- A line has no direction and no box of its own. Whatever its component
is named and wherever that lies, a line along an axis is drawn from its
other end as from the first, and any other with its ends exchanged.

A visible line is drawn in each window as one thing. In a row this is a
box that starts at the end farther to the left, reaches the other end at
least, has the thickness of the line, which is at least a pixel, and
covers the row. In a column it is the same with the axes exchanged, and
along no axis it is the line. A single point counts as a row. -/
theorem undirected (hcontent : c.content = .line s) (id : String)
    (position : Point) (size : Size) :
    let back : Component :=
      { c with
        id := id, position := position, size := size
        content := .line s.reverse }
    (s.Level ∨ s.Upright → ∀ ws, back.synthesize ws = c.synthesize ws)
      ∧ (¬ (s.Level ∨ s.Upright) → ∀ ws,
        back.synthesize ws = (c.synthesize ws).map Instruction.reverse)
      ∧ (c.visible = true → s.Level →
        ∃ r : Rect, c.Draws [.box r s.style.color (.fill 1)]
          ∧ r.Spans s.start.x.pixels s.stop.x.pixels
            s.start.y.pixels (max 1 s.style.width.pixels))
      ∧ (c.visible = true → ¬ s.Level → s.Upright →
        ∃ r : Rect, c.Draws [.box r s.style.color (.fill 1)]
          ∧ r.transpose.Spans s.start.y.pixels s.stop.y.pixels
            s.start.x.pixels (max 1 s.style.width.pixels))
      ∧ (c.visible = true → ¬ (s.Level ∨ s.Upright) →
        c.Draws [.line s.start.x.pixels s.start.y.pixels
          s.stop.x.pixels s.stop.y.pixels s.style.color s.thickness])
      ∧ (c.visible = false → c.Draws []) := by
  intro back
  have hback : back.shown = if c.visible then s.reverse.drawings else [] :=
    shown_of_line rfl
  have hshown := shown_of_line hcontent
  refine ⟨?_, ?_, ?_, ?_, ?_, ?_⟩
  · intro haxis ws
    rw [synthesize_eq_flatMap, synthesize_eq_flatMap, hback, hshown,
      Segment.drawings_reverse_of_axis haxis]
  · intro _
    refine synthesize_eq_map_iff.2 ?_
    rw [hback, hshown, Segment.drawings_reverse]
    split
    next => rfl
    next => rfl
  · intro hvisible hlevel
    have hrect := Segment.rect?_of_level hlevel
    exact ⟨_, (draws_iff_of_line hcontent hvisible).2
      (Segment.drawings_of_rect? hrect),
      Segment.spans_of_level hlevel hrect⟩
  · intro hvisible hlevel hupright
    have hrect := Segment.rect?_of_upright hlevel hupright
    exact ⟨_, (draws_iff_of_line hcontent hvisible).2
      (Segment.drawings_of_rect? hrect),
      Segment.spans_of_upright hlevel hupright hrect⟩
  · intro hvisible hoblique
    rw [not_or] at hoblique
    rw [draws_iff_of_line hcontent hvisible]
    exact Segment.drawings_of_oblique hoblique.1 hoblique.2
  · intro hhidden
    rw [draws_iff, hshown, hhidden]
    rfl

/-- Under another name, elsewhere and from its other end a line in a row
is the same box, which covers it. -/
theorem undirected_ruler :
    (∀ ws, (⟨"other", ⟨7, 7⟩, ⟨3, 3⟩, true, [], .line ruler.reverse⟩
        : Component).synthesize ws
          = (ofContent "ruler" (.line ruler)).synthesize ws)
      ∧ ∃ r : Rect,
        (ofContent "ruler" (.line ruler)).Draws [.box r .white (.fill 1)]
          ∧ r.Spans 100 0 5 4 := by
  have hcontent : (ofContent "ruler" (.line ruler)).content = .line ruler :=
    rfl
  have hlevel : ruler.Level := by decide +kernel
  have hends : ruler.start.x.pixels = 100 ∧ ruler.stop.x.pixels = 0
      ∧ ruler.start.y.pixels = 5 ∧ max 1 ruler.style.width.pixels = 4 := by
    decide +kernel
  obtain ⟨hsame, -, hrow, -⟩ := undirected hcontent "other" ⟨7, 7⟩ ⟨3, 3⟩
  obtain ⟨r, hdraws, hspans⟩ := hrow rfl hlevel
  rw [hends.1, hends.2.1, hends.2.2.1, hends.2.2.2] at hspans
  exact ⟨hsame (.inl hlevel), r, hdraws, hspans⟩

end Component

end TimedOverlay
