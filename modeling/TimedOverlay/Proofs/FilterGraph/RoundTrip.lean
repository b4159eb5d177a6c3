/-
What a graph says, and what it does not.

The main statement is `graph_decodes`. A graph is cut into the texts of
its instructions, in order and whole, and each of them is read as the
filter it was written for, whatever texts are drawn; so no text can end
its option, its filter, or swallow another one.

What a graph does not say is the rest of a number behind its third
place, and an opacity of letters that is not below one. Instructions
that differ in these alone are alike, and two programs have the same
graph exactly if their instructions are alike one by one.
-/
import TimedOverlay.Proofs.FilterGraph.Decode

namespace TimedOverlay

open FilterGraph

-- ================================================================= alike

/-- What is written of the opacity of letters. -/
def Drawing.shownOpacity (x : Binary64) : Option String :=
  if x.lt 1 then some x.orZero.thousandths else none

/-- Drawings that differ at most in what is not written of their
opacity. -/
inductive Drawing.Alike : Drawing → Drawing → Prop
  | fill (r : Rect) (color : Color) {x y : Binary64}
      (h : x.thousandths = y.thousandths) :
      Alike (.box r color (.fill x)) (.box r color (.fill y))
  | outline (r : Rect) (color : Color) (n : Int) :
      Alike (.box r color (.outline n)) (.box r color (.outline n))
  | text (s : String) (anchor : Anchor) (top size : Int) (color : Color)
      {x y : Binary64} (h : shownOpacity x = shownOpacity y) :
      Alike (.text s anchor top size color x) (.text s anchor top size color y)
  | line (x₁ y₁ x₂ y₂ : Int) (color : Color) (n : Int) :
      Alike (.line x₁ y₁ x₂ y₂ color n) (.line x₁ y₁ x₂ y₂ color n)

/-- Instructions with drawings that are alike, in windows whose ends are
written alike. -/
structure Instruction.Alike (i j : Instruction) : Prop where
  drawing : i.drawing.Alike j.drawing
  start : i.window.start.thousandths = j.window.start.thousandths
  stop : i.window.stop.thousandths = j.window.stop.thousandths

-- ======================================================= injective texts

/-- A gate tells how the ends of its window are written. -/
theorem Window.gate_inj {v w : Window} (h : v.gate = w.gate) :
    v.start.thousandths = w.start.thousandths
      ∧ v.stop.thousandths = w.stop.thousandths := by
  have hcomma (x : Binary64) : ',' ∉ x.thousandths.toList := by
    intro hc
    exact absurd (isNumeric_of_mem_thousandths hc) (by decide)
  have hl := congrArg String.toList h
  simp only [Window.gate, String.toList_append, List.append_assoc] at hl
  have hends := List.append_cancel_left hl
  have hclosed : ',' ∉ v.stop.thousandths.toList ++ ")".toList := by
    rw [List.mem_append]
    rintro (hc | hc)
    · exact hcomma _ hc
    · simp at hc
  have hsign : ",".toList = [','] := by simp
  rw [hsign, List.singleton_append, List.singleton_append] at hends
  obtain ⟨hstart, -, hrest⟩ :=
    (List.append_cons_inj_of_notMem (hcomma _) hclosed).1 hends
  exact ⟨String.toList_inj.1 hstart,
    String.toList_inj.1 (List.append_cancel_right hrest)⟩

/-- A color with its opacity tells the color and how its opacity is
written. -/
theorem Drawing.blended_inj {c d : Color} {x y : Binary64}
    (h : blended c x = blended d y) :
    c = d ∧ x.thousandths = y.thousandths := by
  have hl := congrArg String.toList h
  simp only [blended, String.toList_append, List.append_assoc] at hl
  obtain ⟨hcolor, hrest⟩ := List.append_inj hl
    (by rw [length_literal, length_literal])
  exact ⟨Color.literal_inj (String.toList_inj.1 hcolor),
    String.toList_inj.1 (List.append_cancel_left hrest)⟩

theorem Drawing.blended_ne_literal (c d : Color) (x : Binary64) :
    blended c x ≠ d.literal := by
  intro h
  have hl := congrArg (fun s => s.toList.length) h
  simp [blended, length_literal] at hl

/-- A position is told by its expression. -/
theorem Anchor.expression_inj {a b : Anchor}
    (h : a.expression = b.expression) : a = b := by
  have hint {m n : Int} {s : String}
      (hs : ∃ c ∈ s.toList, c ≠ '-' ∧ c.isDigit = false) :
      toString m ≠ toString n ++ s := by
    obtain ⟨c, hc, hsign, hdigit⟩ := hs
    intro e
    have hmem : c ∈ (toString m).toList := by
      rw [e, String.toList_append]
      exact List.mem_append_right _ hc
    rcases mem_toString_int hmem with hm | hm
    · exact hsign hm
    · rw [hdigit] at hm
      cases hm
  have htail {m n : Int} :
      toString m ++ "-text_w/2" ≠ toString n ++ "-text_w" := by
    intro e
    have hlast := congrArg (fun s => s.toList.getLast?) e
    simp at hlast
  have hw : ∃ c ∈ "-text_w".toList, c ≠ '-' ∧ c.isDigit = false :=
    ⟨'w', by simp, by decide, by decide⟩
  have hhalf : ∃ c ∈ "-text_w/2".toList, c ≠ '-' ∧ c.isDigit = false :=
    ⟨'w', by simp, by decide, by decide⟩
  cases a with
  | left m =>
      cases b with
      | left n => rw [toString_int_inj h]
      | center n => exact absurd h (hint hhalf)
      | right n => exact absurd h (hint hw)
  | center m =>
      cases b with
      | left n => exact absurd h.symm (hint hhalf)
      | center n => rw [toString_int_inj ((String.append_left_inj _).1 h)]
      | right n => exact absurd h htail
  | right m =>
      cases b with
      | left n => exact absurd h.symm (hint hw)
      | center n => exact absurd h.symm htail
      | right n => rw [toString_int_inj ((String.append_left_inj _).1 h)]

-- ================================================= settings and filters

namespace Drawing

theorem alike_of_box {r s : Rect} {c d : Color} {f g : BoxStyle}
    (h : (box r c f).settings = (box s d g).settings) :
    (box r c f).Alike (box s d g) := by
  have hparts : r = s ∧ options (box r c f) = options (box s d g) := by
    refine ⟨?_, h⟩
    simp only [settings, options, List.cons_append, List.nil_append,
      List.cons.injEq, Prod.mk.injEq, true_and] at h
    obtain ⟨hx, hy, hw, hh, -⟩ := h
    cases r
    cases s
    simp only [Rect.mk.injEq]
    exact ⟨toString_int_inj hx, toString_int_inj hy, toString_int_inj hw,
      toString_int_inj hh⟩
  obtain ⟨rfl, hoptions⟩ := hparts
  have hstyle := List.append_cancel_left hoptions
  cases f with
  | fill x =>
      cases g with
      | fill y =>
          simp only [List.cons.injEq, Prod.mk.injEq, true_and, and_true]
            at hstyle
          obtain ⟨rfl, hshown⟩ := blended_inj hstyle
          exact .fill r c hshown
      | outline n =>
          simp only [List.cons.injEq, Prod.mk.injEq, true_and] at hstyle
          exact absurd hstyle.1 (blended_ne_literal c d x)
  | outline m =>
      cases g with
      | fill y =>
          simp only [List.cons.injEq, Prod.mk.injEq, true_and] at hstyle
          exact absurd hstyle.1.symm (blended_ne_literal d c y)
      | outline n =>
          simp only [List.cons.injEq, Prod.mk.injEq, true_and, and_true]
            at hstyle
          rw [Color.literal_inj hstyle.1, toString_int_inj hstyle.2]
          exact .outline r d n

theorem alike_of_text {s t : String} {a b : Anchor} {y z m n : Int}
    {c d : Color} {o p : Binary64}
    (h : (text s a y m c o).settings = (text t b z n d p).settings) :
    (text s a y m c o).Alike (text t b z n d p) := by
  simp only [settings, options, List.tail_cons, List.cons.injEq,
    Prod.mk.injEq, true_and, and_true] at h
  obtain ⟨rfl, ha, hy, hm, hcolor⟩ := h
  rw [Anchor.expression_inj ha, toString_int_inj hy, toString_int_inj hm]
  -- An opacity is written only where it is below one.
  split at hcolor
  next ho =>
    split at hcolor
    next hp =>
      obtain ⟨rfl, hshown⟩ := blended_inj hcolor
      refine .text s b z n c ?_
      rw [shownOpacity, shownOpacity, if_pos ho, if_pos hp, hshown]
    next => exact absurd hcolor (blended_ne_literal _ _ _)
  next ho =>
    split at hcolor
    next => exact absurd hcolor.symm (blended_ne_literal _ _ _)
    next hp =>
      rw [Color.literal_inj hcolor]
      refine .text s b z n d ?_
      rw [shownOpacity, shownOpacity, if_neg ho, if_neg hp]

theorem alike_of_line {x₁ y₁ x₂ y₂ m x₁' y₁' x₂' y₂' n : Int} {c d : Color}
    (h : (line x₁ y₁ x₂ y₂ c m).settings
      = (line x₁' y₁' x₂' y₂' d n).settings) :
    (line x₁ y₁ x₂ y₂ c m).Alike (line x₁' y₁' x₂' y₂' d n) := by
  simp only [settings, options, List.cons.injEq, Prod.mk.injEq, true_and,
    and_true] at h
  obtain ⟨hx₁, hy₁, hx₂, hy₂, hcolor, hn⟩ := h
  rw [toString_int_inj hx₁, toString_int_inj hy₁, toString_int_inj hx₂,
    toString_int_inj hy₂, Color.literal_inj hcolor, toString_int_inj hn]
  exact .line ..

/-- Drawings of one filter with the same settings are alike. -/
theorem alike_of_settings {d e : Drawing}
    (hname : d.filterName = e.filterName) (h : d.settings = e.settings) :
    d.Alike e := by
  cases d with
  | box =>
      cases e with
      | box => exact alike_of_box h
      | text => simp [filterName] at hname
      | line => simp [filterName] at hname
  | text =>
      cases e with
      | box => simp [filterName] at hname
      | text => exact alike_of_text h
      | line => simp [filterName] at hname
  | line =>
      cases e with
      | box => simp [filterName] at hname
      | text => simp [filterName] at hname
      | line => exact alike_of_line h

theorem Alike.filter_eq {d e : Drawing} (h : d.Alike e) :
    d.filterName = e.filterName ∧ d.options = e.options := by
  cases h with
  | fill r c hxy => exact ⟨rfl, by simp [options, blended, hxy]⟩
  | outline r c n => exact ⟨rfl, rfl⟩
  | @text s a t n c x y hxy =>
      refine ⟨rfl, ?_⟩
      unfold shownOpacity at hxy
      simp only [options]
      split at hxy
      next hx =>
        split at hxy
        next hy =>
          rw [if_pos hx, if_pos hy, blended, blended, Option.some.inj hxy]
        next => cases hxy
      next hx =>
        split at hxy
        next => cases hxy
        next hy => rw [if_neg hx, if_neg hy]
  | line x₁ y₁ x₂ y₂ c n => exact ⟨rfl, rfl⟩

end Drawing

namespace Instruction

theorem alike_of_filter_eq {i j : Instruction} (h : i.filter = j.filter) :
    i.Alike j := by
  have hname := congrArg FilterGraph.Filter.name h
  have hsettings := congrArg FilterGraph.Filter.options h
  obtain ⟨hdrawing, hgate⟩ := List.append_inj' hsettings rfl
  simp only [List.cons.injEq, Prod.mk.injEq, true_and, and_true] at hgate
  obtain ⟨hstart, hstop⟩ := Window.gate_inj hgate
  exact ⟨Drawing.alike_of_settings hname hdrawing, hstart, hstop⟩

theorem Alike.text_eq {i j : Instruction} (h : i.Alike j) :
    i.text = j.text := by
  obtain ⟨hname, hoptions⟩ := h.drawing.filter_eq
  unfold text options Window.gate
  rw [hname, hoptions, h.start, h.stop]

end Instruction

-- ================================================================ graphs

namespace Program

/-- The graph of a program that draws something: the texts of its
instructions between commas. -/
theorem graph?_of_cons {p : Program} {first : Instruction}
    {rest : List Instruction} (h : p.instructions = first :: rest) :
    p.graph?
      = some (String.intercalate "," ((first :: rest).map Instruction.text)) := by
  unfold graph?
  rw [h]

/-- A graph is cut into the tokens of its instructions. -/
theorem parts?_graph (first : Instruction) (rest : List Instruction) :
    parts? ','
        (String.intercalate "," ((first :: rest).map Instruction.text)).toList
      = some ((first :: rest).map fun i => tokens i.text.toList) := by
  have hcomma : ",".toList = [','] := by simp
  rw [String.toList_intercalate, hcomma, parts?_intercalate rfl (by simp),
    List.map_map, List.map_map]
  · rfl
  · intro s hs
    simp only [List.map_map, List.mem_map] at hs
    obtain ⟨i, -, rfl⟩ := hs
    exact complete_of_scan? i.scan?_text
  · intro s hs
    simp only [List.map_map, List.mem_map] at hs
    obtain ⟨i, -, rfl⟩ := hs
    exact i.unmarked (by decide)

/-- The parts of a graph are read as the filters of its instructions. -/
theorem filters_of_graph?_eq {p q : Program} (h : p.graph? = q.graph?) :
    p.instructions.map Instruction.filter
      = q.instructions.map Instruction.filter := by
  have hread (is : List Instruction) :
      (is.map fun i => tokens i.text.toList).map Filter.read?
        = (is.map Instruction.filter).map some := by
    rw [List.map_map, List.map_map]
    exact List.map_congr_left fun i _ => i.read?_text
  cases hp : p.instructions with
  | nil =>
      cases hq : q.instructions with
      | nil => rfl
      | cons j js =>
          rw [graph?_of_cons hq, graph?, hp] at h
          cases h
  | cons i is =>
      cases hq : q.instructions with
      | nil =>
          rw [graph?_of_cons hp, graph?, hq] at h
          cases h
      | cons j js =>
          rw [graph?_of_cons hp, graph?_of_cons hq] at h
          have hparts := parts?_graph i is
          rw [Option.some.inj h, parts?_graph j js] at hparts
          have hfilters := congrArg (List.map Filter.read?)
            (Option.some.inj hparts)
          rw [hread, hread] at hfilters
          exact List.map_injective_iff.2 (Option.some_injective _)
            hfilters.symm

/-- Two programs have the same graph exactly if their instructions are
alike one by one. -/
theorem graph?_eq_iff (p q : Program) :
    p.graph? = q.graph?
      ↔ List.Forall₂ Instruction.Alike p.instructions q.instructions := by
  constructor
  · intro h
    have hfilters := filters_of_graph?_eq h
    rw [← List.forall₂_eq_eq_eq, List.forall₂_map_left_iff,
      List.forall₂_map_right_iff] at hfilters
    exact hfilters.imp fun _ _ => Instruction.alike_of_filter_eq
  · intro h
    have htexts : p.instructions.map Instruction.text
        = q.instructions.map Instruction.text := by
      rw [← List.forall₂_eq_eq_eq, List.forall₂_map_left_iff,
        List.forall₂_map_right_iff]
      exact h.imp fun _ _ => Instruction.Alike.text_eq
    unfold graph?
    generalize p.instructions = is at h htexts
    generalize q.instructions = js at h htexts
    cases h with
    | nil => rfl
    | cons =>
        show some _ = some _
        rw [htexts]

end Program

/-- Reading a graph undoes writing it. The graph of any instructions is
complete and cut at its bare commas into one part for each of them, in
order: the text of that instruction, in which no other mark of a graph
is bare. Every part is read as the filter of its instruction, the
settings of which hold a drawn text as it is. So two graphs are the same
text exactly if the instructions are alike one by one. -/
theorem graph_decodes :
    (∀ (first : Instruction) (rest : List Instruction),
      ∃ graph parts,
        (Program.filters first rest).graph? = some graph
        ∧ parts? ',' graph.toList = some parts
        ∧ parts.map spelled = (first :: rest).map (·.text.toList)
        ∧ (∀ part ∈ parts, ∀ c ∈ [';', '[', ']'], .bare c ∉ part)
        ∧ parts.map Filter.read?
          = (first :: rest).map fun i => some i.filter)
    ∧ ∀ p q : Program, p.graph? = q.graph?
        ↔ List.Forall₂ Instruction.Alike p.instructions q.instructions := by
  refine ⟨fun first rest => ?_, Program.graph?_eq_iff⟩
  refine ⟨_, _, Program.graph?_of_cons rfl, Program.parts?_graph first rest,
    ?_, ?_, ?_⟩
  · rw [List.map_map]
    refine List.map_congr_left fun i _ => ?_
    exact spelled_of_scan? (complete_of_scan? i.scan?_text).scan?
  · intro part hpart c hc
    obtain ⟨i, -, rfl⟩ := List.mem_map.1 hpart
    refine i.unmarked ?_
    revert c hc
    simp [graphMarks]
  · rw [List.map_map]
    exact List.map_congr_left fun i _ => i.read?_text

end TimedOverlay
