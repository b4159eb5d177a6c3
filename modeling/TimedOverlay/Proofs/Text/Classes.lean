/-
Blanks, digits and tails of a text.

Blanks at the ends of a text are all that trimming takes away
(`trim_between`, `trim_surrounded`), and it adds nothing
(`mem_of_mem_trim`). Digits are taken as a whole (`takeDigits_append`);
they are no blanks, and none of them is changed by folding letters. What
a text begins or ends with is taken off where it does so
(`after?_eq_some_iff`, `before?_eq_some_iff`), and nothing is where the
last character differs.
-/
import Mathlib.Data.List.TakeWhile
import TimedOverlay.Decimal.Basic

namespace TimedOverlay.Text

-- =============================================================== blanks

/-- A run of blanks. -/
def Blank (s : List Char) : Prop := ∀ c ∈ s, isBlank c = true

instance (s : List Char) : Decidable (Blank s) :=
  decidable_of_iff (s.all isBlank = true) List.all_eq_true

theorem blank_nil : Blank [] := List.forall_mem_nil _

theorem Blank.reverse {s : List Char} (h : Blank s) : Blank s.reverse :=
  fun c hc => h c (List.mem_reverse.1 hc)

/-- Blanks in front of a text are dropped, and nothing of a text that
starts with another character. -/
theorem trimStart_append {b s : List Char} (hb : Blank b)
    (hs : ∀ c, s.head? = some c → isBlank c = false) :
    trimStart (b ++ s) = s := by
  unfold trimStart
  rw [List.dropWhile_append_of_pos hb]
  cases s with
  | nil => rfl
  | cons c rest =>
      have hc := hs c rfl
      rw [List.dropWhile_cons_of_neg (by simp [hc])]

theorem trimEnd_append {b s : List Char} (hb : Blank b)
    (hs : ∀ c, s.getLast? = some c → isBlank c = false) :
    trimEnd (s ++ b) = s := by
  have hreverse : trimStart (b.reverse ++ s.reverse) = s.reverse :=
    trimStart_append hb.reverse fun c hc => hs c (by
      rwa [List.head?_reverse] at hc)
  unfold trimStart at hreverse
  unfold trimEnd
  rw [List.reverse_append, hreverse, List.reverse_reverse]

/-- Between blanks, a text with none at its ends stays. -/
theorem trim_between {b s b' : List Char} (hb : Blank b) (hb' : Blank b')
    (hne : s ≠ []) (hstart : ∀ c, s.head? = some c → isBlank c = false)
    (hend : ∀ c, s.getLast? = some c → isBlank c = false) :
    trim (b ++ s ++ b') = s := by
  unfold trim
  rw [List.append_assoc, trimStart_append hb, trimEnd_append hb' hend]
  obtain ⟨c, rest, rfl⟩ := List.exists_cons_of_ne_nil hne
  exact hstart

/-- Blanks around a text make no difference to what is left of it. -/
theorem trim_surrounded {b b' : List Char} (hb : Blank b) (hb' : Blank b')
    (s : List Char) : trim (b ++ s ++ b') = trim s := by
  have hend (t : List Char) : trimEnd (t ++ b') = trimEnd t := by
    unfold trimEnd
    rw [List.reverse_append, List.dropWhile_append_of_pos hb'.reverse]
  unfold trim trimStart
  rw [List.append_assoc, List.dropWhile_append_of_pos hb,
    List.dropWhile_append]
  split
  next h =>
    -- There is nothing but blanks.
    have hblank : b'.dropWhile isBlank = [] := List.dropWhile_eq_nil_iff.2 hb'
    rw [hblank, List.isEmpty_iff.1 h]
  next => exact hend _

theorem trim_of_forall {s : List Char} (h : ∀ c ∈ s, isBlank c = false) :
    trim s = s := by
  cases s with
  | nil => rfl
  | cons c rest =>
      have hself := trim_between blank_nil blank_nil (List.cons_ne_nil c rest)
        (fun d hd => h d (List.mem_of_mem_head? hd))
        (fun d hd => h d (List.mem_of_getLast? hd))
      rwa [List.nil_append, List.append_nil] at hself

theorem mem_of_mem_trim {c : Char} {s : List Char} (h : c ∈ trim s) :
    c ∈ s := by
  unfold trim trimEnd trimStart at h
  rw [List.mem_reverse] at h
  have hdropped := (List.dropWhile_sublist _).mem h
  rw [List.mem_reverse] at hdropped
  exact (List.dropWhile_sublist _).mem hdropped

-- =============================================================== digits

/-- A run of digits. -/
def Digits (s : List Char) : Prop := ∀ c ∈ s, c.isDigit = true

instance (s : List Char) : Decidable (Digits s) :=
  decidable_of_iff (s.all Char.isDigit = true) List.all_eq_true

theorem isBlank_of_isDigit {c : Char} (h : c.isDigit = true) :
    isBlank c = false := by
  simp only [Char.isDigit, Bool.and_eq_true, decide_eq_true_eq,
    UInt32.le_iff_toNat_le] at h
  have hlow : 48 ≤ c.toNat := h.1
  have hhigh : c.toNat ≤ 57 := h.2
  simp only [isBlank, Bool.or_eq_false_iff, Bool.and_eq_false_iff,
    decide_eq_false_iff_not, beq_eq_false_iff_ne]
  omega

/-- Only letters are folded. -/
theorem toLower_of_isDigit {c : Char} (h : c.isDigit = true) :
    c.toLower = c := by
  unfold Char.toLower
  split
  next hletter =>
    simp only [Char.isDigit, Bool.and_eq_true, decide_eq_true_eq,
      UInt32.le_iff_toNat_le] at h
    simp only [ge_iff_le, UInt32.le_iff_toNat_le] at hletter
    have hhigh : c.toNat ≤ 57 := h.2
    have hlow : 65 ≤ c.toNat := hletter.1
    omega
  next => rfl

-- ================================================================ tails

theorem after?_eq_some_iff {start s t : List Char} :
    after? start s = some t ↔ s = start ++ t := by
  unfold after?
  constructor
  · intro h
    split at h
    next hprefix =>
      obtain ⟨u, rfl⟩ := List.isPrefixOf_iff_prefix.1 hprefix
      rw [List.drop_left] at h
      rw [Option.some.inj h]
    next => cases h
  · rintro rfl
    rw [if_pos (by simp), List.drop_left]

theorem before?_eq_some_iff {tail s t : List Char} :
    before? tail s = some t ↔ s = t ++ tail := by
  unfold before?
  rw [Option.map_eq_some_iff]
  constructor
  · rintro ⟨u, hu, rfl⟩
    have hs := congrArg List.reverse (after?_eq_some_iff.1 hu)
    rwa [List.reverse_reverse, List.reverse_append, List.reverse_reverse]
      at hs
  · rintro rfl
    refine ⟨t.reverse, after?_eq_some_iff.2 ?_, List.reverse_reverse t⟩
    rw [List.reverse_append]

/-- A tail can be taken off again. -/
theorem before?_append (tail s : List Char) :
    before? tail (s ++ tail) = some s := before?_eq_some_iff.2 rfl

/-- Nothing is taken off a text that ends in another character. -/
theorem before?_of_getLast? {tail s : List Char} {c d : Char}
    (htail : tail.getLast? = some c) (hs : s.getLast? = some d)
    (h : c ≠ d) : before? tail s = none := by
  unfold before? after?
  rw [if_neg, Option.map_none]
  intro hprefix
  obtain ⟨t, ht⟩ := List.isPrefixOf_iff_prefix.1 hprefix
  rw [← List.head?_reverse] at htail hs
  rw [← ht, List.head?_append, htail] at hs
  exact h (Option.some.inj hs)

end TimedOverlay.Text

namespace TimedOverlay.Decimal

open Text (Digits)

/-- Digits are taken up to the first other character. -/
theorem takeDigits_append {ds rest : List Char} (hds : Digits ds)
    (hrest : ∀ c, rest.head? = some c → c.isDigit = false) :
    takeDigits (ds ++ rest) = (ds, rest) := by
  unfold takeDigits
  rw [List.takeWhile_append_of_pos hds, List.dropWhile_append_of_pos hds]
  cases rest with
  | nil => simp
  | cons c rest =>
      have hc := hrest c rfl
      rw [List.takeWhile_cons_of_neg (by simp [hc]),
        List.dropWhile_cons_of_neg (by simp [hc]), List.append_nil]

theorem takeDigits_self {ds : List Char} (hds : Digits ds) :
    takeDigits ds = (ds, []) := by
  have hend (c : Char) (h : ([] : List Char).head? = some c) :
      c.isDigit = false := by
    cases h
  have h := takeDigits_append hds hend
  rwa [List.append_nil] at h

end TimedOverlay.Decimal
