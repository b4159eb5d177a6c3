/-
The values that options are written with.

Whole numbers, colors, positions and decimals are written with digits,
letters and a few signs, and mean nothing else to any reader of a graph
(`Quiet`). They are also told apart by how they are written, with one
exception: decimals have three places, so two numbers that agree in
these are written alike.
-/
import Mathlib
import TimedOverlay.Proofs.Decimal.Digits
import TimedOverlay.Proofs.FilterGraph.Filter
import TimedOverlay.Proofs.Text.Colors

namespace TimedOverlay.FilterGraph

-- ========================================================= whole numbers

theorem isQuiet_of_isDigit {c : Char} (h : c.isDigit = true) :
    isQuiet c = true := by
  simp only [isQuiet, decide_eq_true_eq]
  intro hmem
  simp only [List.mem_cons, List.not_mem_nil, or_false] at hmem
  rcases hmem with rfl | rfl | rfl | rfl | rfl | rfl | rfl
  all_goals exact absurd h (by decide)

/-- The characters of a whole number: digits, behind a sign at most. -/
theorem mem_toString_int {n : Int} {c : Char}
    (h : c ∈ (toString n).toList) : c = '-' ∨ c.isDigit = true := by
  have hnat : ∀ k : Nat, c ∈ k.repr.toList → c.isDigit = true := by
    intro k hk
    rw [Nat.toList_repr] at hk
    exact Nat.isDigit_of_mem_toDigits (by decide) (by decide) hk
  rw [Int.toString_eq_repr, Int.repr_eq_if] at h
  split at h
  next => exact .inr (hnat _ h)
  next =>
    rw [String.toList_append, List.mem_append] at h
    rcases h with h | h
    · exact .inl (by simpa using h)
    · exact .inr (hnat _ h)

theorem quiet_int (n : Int) : Quiet (toString n) := by
  refine quiet_iff.2 fun c hc => ?_
  rcases mem_toString_int hc with rfl | hd
  · rfl
  · exact isQuiet_of_isDigit hd

/-- Whole numbers are told apart by how they are written. -/
theorem toString_int_inj {m n : Int} (h : toString m = toString n) :
    m = n :=
  Int.repr_inj.1 h

-- ================================================================ colors

/-- Colors are quiet. -/
theorem quiet_literal (c : Color) : Quiet c.literal := by
  have hdigit : ∀ k < 16, isQuiet (Text.hexDigit k) = true := by decide
  refine quiet_iff.2 fun d hd => ?_
  rcases Color.mem_literal hd with rfl | ⟨k, hk, rfl⟩
  · rfl
  · exact hdigit k hk

/-- A color has eight characters. -/
theorem length_literal (c : Color) : c.literal.toList.length = 8 := by
  rw [Color.literal, String.toList_ofList]
  rfl

-- ============================================================== decimals

/-- The characters of a decimal: digits, a sign, a point. -/
def isNumeric (c : Char) : Bool := c = '-' || c = '.' || c.isDigit

/-- Characters of decimals are quiet. -/
theorem isQuiet_of_isNumeric {c : Char} (h : isNumeric c = true) :
    isQuiet c = true := by
  simp only [isNumeric, Bool.or_eq_true, decide_eq_true_eq] at h
  rcases h with (rfl | rfl) | h
  · rfl
  · rfl
  · exact isQuiet_of_isDigit h

/-- The places of a decimal are numeric. -/
theorem isNumeric_of_mem_fractionDigits {n : Nat} {c : Char}
    (h : c ∈ Binary64.fractionDigits n) : isNumeric c = true := by
  rw [Binary64.fractionDigits_eq] at h
  split at h
  next => cases h
  next =>
    rcases List.mem_cons.1 h with rfl | h
    · rfl
    · simp [isNumeric, Binary64.digits_keptDigits n c h]

/-- Decimals are numeric. -/
theorem isNumeric_of_mem_thousandths {x : Binary64} {c : Char}
    (h : c ∈ x.thousandths.toList) : isNumeric c = true := by
  unfold Binary64.thousandths at h
  split at h
  next s m =>
    rw [Binary64.thousandthsText, String.toList_ofList] at h
    simp only [List.mem_append] at h
    rcases h with (h | h) | h
    · split at h
      · rw [List.mem_singleton.1 h]
        rfl
      · cases h
    · have := Nat.isDigit_of_mem_toDigits (by decide) (by decide) h
      simp [isNumeric, this]
    · exact isNumeric_of_mem_fractionDigits h
  next =>
    have hc : c = '0' := by simpa using h
    rw [hc]
    rfl

/-- Decimals are quiet. -/
theorem quiet_thousandths (x : Binary64) : Quiet x.thousandths :=
  quiet_iff.2 fun _ hc =>
    isQuiet_of_isNumeric (isNumeric_of_mem_thousandths hc)

end TimedOverlay.FilterGraph
