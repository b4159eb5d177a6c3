/-
Opacities as they are written.

Behind a color and a mark stands an opacity with at most three places.
If it is between zero and one, what stands there is `0`, `1`, or `0` with
one to three digits behind the point (`InUnit.isShare_thousandths`). No
other value has the mark, so this holds of all that a reader of the graph
finds behind one (`Program.marksShares_of_graph?`), save in the texts
that are drawn, which may hold any character.
-/
import Mathlib
import TimedOverlay.Proofs.Binary64.Unit
import TimedOverlay.Proofs.FilterGraph.RoundTrip

namespace TimedOverlay

open FilterGraph

-- ================================================================ shares

/-- The decimals of at most three places that are not below zero and not
above one: nothing, the whole, and a part of it by the digits behind the
point. -/
inductive IsShare : List Char → Prop
  | none : IsShare ['0']
  | whole : IsShare ['1']
  | part {ds : List Char} (hne : ds ≠ []) (hlength : ds.length ≤ 3)
      (hdigits : ∀ c ∈ ds, c.isDigit = true) : IsShare ('0' :: '.' :: ds)

namespace Binary64

theorem isShare_thousandthsText {n : Nat} (h : n ≤ 1000) :
    IsShare (thousandthsText n).toList := by
  unfold thousandthsText
  rw [String.toList_ofList, Int.natAbs_natCast, if_neg (by omega),
    List.nil_append]
  by_cases htop : n = 1000
  · subst htop
    exact .whole
  · have hwhole : n / 1000 = 0 := by omega
    rw [hwhole]
    show IsShare ('0' :: fractionDigits n)
    rw [fractionDigits_eq]
    split
    next => exact .none
    next hne =>
      exact .part hne (length_keptDigits_le n) (digits_keptDigits n)

theorem InUnit.isShare_thousandths {x : Binary64} (h : x.InUnit) :
    IsShare x.thousandths.toList := by
  obtain ⟨s, m, rfl, hs, hm⟩ := h.exists_finite
  have hplaces : inPlaces 3 m ≤ 1000 :=
    roundHalfEven_le_of_le_mul Magnitude.unitsPerOne_pos (by omega)
  have hsign : thousandthsOf s m = (inPlaces 3 m : Int) := by
    unfold thousandthsOf
    rcases hs with rfl | hs
    · rfl
    · have hzero : inPlaces 3 m = 0 := by
        unfold inPlaces
        rw [hs, Nat.zero_mul, roundHalfEven_zero]
      rw [hzero]
      exact ite_self 0
  rw [thousandths, hsign]
  exact isShare_thousandthsText hplaces

end Binary64

-- ================================================================= marks

/-- What stands behind a mark of an opacity is a share. -/
def MarksShares (value : String) : Prop :=
  ∀ pre alpha, value.toList = pre ++ '@' :: alpha → IsShare alpha

theorem marksShares_of_notMem {value : String}
    (h : '@' ∉ value.toList) : MarksShares value := by
  intro pre alpha hvalue
  rw [hvalue] at h
  exact absurd (List.mem_append_right _ List.mem_cons_self) h

theorem at_notMem_int (n : Int) : '@' ∉ n.repr.toList := by
  intro h
  rcases mem_toString_int h with h | h
  · cases h
  · cases h

theorem at_notMem_thousandths (x : Binary64) :
    '@' ∉ x.thousandths.toList := by
  intro h
  cases isNumeric_of_mem_thousandths h

theorem at_notMem_literal (c : Color) : '@' ∉ c.literal.toList := by
  have hdigit : ∀ k < 16, '@' ≠ Text.hexDigit k := by decide
  intro h
  rcases Color.mem_literal h with h | ⟨k, hk, h⟩
  · cases h
  · exact hdigit k hk h

@[simp] theorem marksShares_int (n : Int) : MarksShares n.repr :=
  marksShares_of_notMem (at_notMem_int n)

@[simp] theorem marksShares_literal (c : Color) : MarksShares c.literal :=
  marksShares_of_notMem (at_notMem_literal c)

@[simp] theorem marksShares_expression (a : Anchor) :
    MarksShares a.expression := by
  refine marksShares_of_notMem ?_
  cases a with
  | left x => exact at_notMem_int x
  | center x => simpa [Anchor.expression] using at_notMem_int x
  | right x => simpa [Anchor.expression] using at_notMem_int x

theorem marksShares_gate (w : Window) : MarksShares w.gate :=
  marksShares_of_notMem (by simp [Window.gate, at_notMem_thousandths])

/-- Only behind a color does an opacity stand, and it stands there
alone. -/
theorem marksShares_blended (c : Color) {x : Binary64} (h : x.InUnit) :
    MarksShares (Drawing.blended c x) := by
  intro pre alpha hvalue
  have hparts : (Drawing.blended c x).toList
      = c.literal.toList ++ '@' :: x.thousandths.toList := by
    simp [Drawing.blended]
  rw [hparts] at hvalue
  obtain ⟨-, -, rfl⟩ := (List.append_cons_inj_of_notMem
    (at_notMem_literal c) (at_notMem_thousandths x)).1 hvalue
  exact h.isShare_thousandths

-- ============================================================== drawings

namespace Drawing

/-- The opacity of a drawing that has one: a filled box or a text. -/
def opacity? : Drawing → Option Binary64
  | .box _ _ (.fill opacity) => some opacity
  | .text _ _ _ _ _ opacity => some opacity
  | _ => none

/-- A drawing whose opacity, if it has one, is between zero and one. -/
def Blends (d : Drawing) : Prop :=
  ∀ x, d.opacity? = some x → x.InUnit

theorem Blends.marksShares {d : Drawing} (h : d.Blends) :
    ∀ o ∈ d.settings, o.1 ≠ "text" → MarksShares o.2 := by
  cases d with
  | box r color style =>
      cases style with
      | fill opacity =>
          have hcolor := marksShares_blended color (h opacity rfl)
          have hfill : MarksShares "fill" :=
            marksShares_of_notMem (by simp)
          simp [settings, options, hcolor, hfill]
      | outline n => simp [settings, options]
  | text s anchor y fontSize color opacity =>
      have hcolor : MarksShares (if opacity.lt 1 then
          blended color opacity.orZero else color.literal) := by
        split
        next => exact marksShares_blended color (h opacity rfl).orZero
        next => exact marksShares_literal color
      simp [settings, options, hcolor]
  | line x₁ y₁ x₂ y₂ color n => simp [settings, options]

end Drawing

-- ================================================================ graphs

theorem Instruction.marksShares {i : Instruction}
    (h : i.drawing.Blends) :
    ∀ o ∈ i.settings, o.1 ≠ "text" → MarksShares o.2 := by
  intro o ho hname
  rcases List.mem_append.1 ho with ho | ho
  · exact h.marksShares o ho hname
  · obtain rfl := List.mem_singleton.1 ho
    exact marksShares_gate i.window

/-- What is read behind the marks of a graph are shares, if its drawings
blend. -/
theorem Program.marksShares_of_graph? {p : Program}
    (h : ∀ i ∈ p.instructions, i.drawing.Blends) {graph : String}
    (hgraph : p.graph? = some graph) :
    ∃ parts, parts? ',' graph.toList = some parts
      ∧ parts.length = p.instructions.length
      ∧ ∀ part ∈ parts, ∃ f, Filter.read? part = some f
        ∧ ∀ o ∈ f.options, o.1 ≠ "text" → MarksShares o.2 := by
  cases hp : p.instructions with
  | nil =>
      rw [graph?, hp] at hgraph
      cases hgraph
  | cons first rest =>
      rw [graph?_of_cons hp] at hgraph
      obtain rfl := Option.some.inj hgraph
      refine ⟨_, parts?_graph first rest, List.length_map _, ?_⟩
      intro part hpart
      obtain ⟨i, hi, rfl⟩ := List.mem_map.1 hpart
      rw [← hp] at hi
      exact ⟨i.filter, i.read?_text, Instruction.marksShares (h i hi)⟩

end TimedOverlay
