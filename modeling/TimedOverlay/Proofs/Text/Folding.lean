/-
Readings that do not see the case of letters.

Folding moves a capital letter of ASCII by 32 places and nothing else
(`toNat_toLower`). So it makes no blank and no digit and takes none away,
and it commutes with trimming and with cutting at a character that is no
letter. Words are compared folded, the mark of an exponent may be of
either case, and no other letter stands in a number: the same number is
read from a text and from the folded text (`Binary64.numeral?_fold`).
-/
import TimedOverlay.Proofs.Text.Classes

namespace TimedOverlay

namespace Text

-- ============================================================ characters

theorem toNat_toLower (c : Char) :
    c.toLower.toNat
      = if 65 ≤ c.toNat ∧ c.toNat ≤ 90 then c.toNat + 32 else c.toNat := by
  unfold Char.toLower
  split
  next hletter =>
    simp only [ge_iff_le, UInt32.le_iff_toNat_le] at hletter
    have hlow : 65 ≤ c.toNat := hletter.1
    have hhigh : c.toNat ≤ 90 := hletter.2
    rw [if_pos ⟨hlow, hhigh⟩]
    show (c.val + ('a'.val - 'A'.val)).toNat = c.val.toNat + 32
    rw [UInt32.toNat_add]
    have hval : c.val.toNat ≤ 90 := hhigh
    have hdiff : ('a'.val - 'A'.val).toNat = 32 := rfl
    omega
  next hletter =>
    simp only [ge_iff_le, UInt32.le_iff_toNat_le] at hletter
    rw [if_neg]
    exact hletter

/-- A character that is no letter is folded from itself only. -/
theorem toLower_eq_iff {c d : Char}
    (hd : ¬ (65 ≤ d.toNat ∧ d.toNat ≤ 90) ∧ ¬ (97 ≤ d.toNat ∧ d.toNat ≤ 122)) :
    c.toLower = d ↔ c = d := by
  rw [← Char.toNat_inj, ← Char.toNat_inj, toNat_toLower]
  split <;> omega

@[simp] theorem toLower_toLower (c : Char) : c.toLower.toLower = c.toLower := by
  rw [← Char.toNat_inj, toNat_toLower c.toLower, toNat_toLower c]
  split
  next h =>
    rw [if_neg]
    omega
  next => rfl

@[simp] theorem isBlank_toLower (c : Char) : isBlank c.toLower = isBlank c := by
  unfold isBlank
  rw [toNat_toLower]
  split
  next h =>
    rw [Bool.eq_iff_iff]
    simp only [Bool.or_eq_true, Bool.and_eq_true, decide_eq_true_eq,
      beq_iff_eq]
    omega
  next => rfl

theorem isDigit_iff {c : Char} :
    c.isDigit = true ↔ 48 ≤ c.toNat ∧ c.toNat ≤ 57 := by
  simp only [Char.isDigit, Bool.and_eq_true, decide_eq_true_eq, ge_iff_le,
    UInt32.le_iff_toNat_le]
  rfl

@[simp] theorem isDigit_toLower (c : Char) : c.toLower.isDigit = c.isDigit := by
  rw [Bool.eq_iff_iff, isDigit_iff, isDigit_iff, toNat_toLower]
  split <;> omega

-- ================================================================= texts

@[simp] theorem fold_nil : fold [] = [] := rfl

@[simp] theorem fold_cons (c : Char) (s : List Char) :
    fold (c :: s) = c.toLower :: fold s := rfl

@[simp] theorem fold_append (s t : List Char) :
    fold (s ++ t) = fold s ++ fold t := List.map_append

@[simp] theorem fold_eq_nil {s : List Char} : fold s = [] ↔ s = [] :=
  List.map_eq_nil_iff

@[simp] theorem fold_fold (s : List Char) : fold (fold s) = fold s := by
  unfold fold
  rw [List.map_map]
  exact List.map_congr_left fun c _ => toLower_toLower c

theorem fold_reverse (s : List Char) : fold s.reverse = (fold s).reverse :=
  List.map_reverse

theorem fold_of_digits {ds : List Char} (h : Digits ds) : fold ds = ds := by
  unfold fold
  rw [List.map_congr_left fun c hc => toLower_of_isDigit (h c hc)]
  exact List.map_id' ds

/-- Blanks are where they were. -/
theorem trimStart_fold (s : List Char) :
    trimStart (fold s) = fold (trimStart s) := by
  unfold trimStart fold
  rw [List.dropWhile_map]
  exact congrArg (fun p => (s.dropWhile p).map Char.toLower)
    (funext isBlank_toLower)

theorem trim_fold (s : List Char) : trim (fold s) = fold (trim s) := by
  have hend (t : List Char) : trimEnd (fold t) = fold (trimEnd t) := by
    show (trimStart (fold t).reverse).reverse
      = fold (trimStart t.reverse).reverse
    rw [← fold_reverse, trimStart_fold, fold_reverse]
  unfold trim
  rw [trimStart_fold, hend]

/-- A text is cut where it was, if no letter is a separator. -/
theorem split_fold {separator : Char}
    (h : ∀ c : Char, c.toLower = separator ↔ c = separator)
    (s : List Char) :
    split separator (fold s) = (split separator s).map fold := by
  induction s with
  | nil => rfl
  | cons c rest ih =>
      by_cases hc : c = separator
      · have hlower : c.toLower = separator := (h c).2 hc
        rw [fold_cons, split, if_pos hlower, split, if_pos hc, ih]
        rfl
      · have hlower : ¬ c.toLower = separator := fun e => hc ((h c).1 e)
        rw [fold_cons, split, if_neg hlower, split, if_neg hc, ih]
        cases split separator rest with
        | nil => rfl
        | cons piece pieces => rfl

end Text

-- =============================================================== numbers

namespace Decimal

open Text (fold fold_of_digits isDigit_toLower)

theorem takeSign_fold (s : List Char) :
    takeSign (fold s) = ((takeSign s).1, fold (takeSign s).2) := by
  cases s with
  | nil => rfl
  | cons c rest =>
      have hminus : c.toLower = '-' ↔ c = '-' := Text.toLower_eq_iff (by decide)
      have hplus : c.toLower = '+' ↔ c = '+' := Text.toLower_eq_iff (by decide)
      by_cases hm : c = '-'
      · subst hm
        rfl
      by_cases hp : c = '+'
      · subst hp
        rfl
      have hstart {d : Char} {r : List Char} (hdm : d ≠ '-') (hdp : d ≠ '+') :
          takeSign (d :: r) = (false, d :: r) := by
        unfold takeSign
        split
        next e => exact absurd (List.cons.inj e).1 hdm
        next e => exact absurd (List.cons.inj e).1 hdp
        next => rfl
      rw [Text.fold_cons, hstart (mt hminus.1 hm) (mt hplus.1 hp),
        hstart hm hp, Text.fold_cons]

theorem takeDigits_fold (s : List Char) :
    takeDigits (fold s) = ((takeDigits s).1, fold (takeDigits s).2) := by
  have hdigits : Text.Digits (s.takeWhile Char.isDigit) :=
    List.all_eq_true.1 List.all_takeWhile
  have hcomp : Char.isDigit ∘ Char.toLower = Char.isDigit :=
    funext isDigit_toLower
  unfold takeDigits fold
  rw [List.takeWhile_map, List.dropWhile_map, hcomp]
  exact congrArg (·, _) (fold_of_digits hdigits)

theorem takeFraction_fold (s : List Char) :
    takeFraction (fold s) = ((takeFraction s).1, fold (takeFraction s).2) := by
  cases s with
  | nil => rfl
  | cons c rest =>
      have hpoint : c.toLower = '.' ↔ c = '.' := Text.toLower_eq_iff (by decide)
      by_cases hp : c = '.'
      · subst hp
        exact takeDigits_fold rest
      have hstart {d : Char} {r : List Char} (hd : d ≠ '.') :
          takeFraction (d :: r) = ([], d :: r) := by
        unfold takeFraction
        split
        next e => exact absurd (List.cons.inj e).1 hd
        next => rfl
      rw [Text.fold_cons, hstart (mt hpoint.1 hp), hstart hp, Text.fold_cons]

theorem exponent?_fold (s : List Char) : exponent? (fold s) = exponent? s := by
  cases s with
  | nil => rfl
  | cons mark rest =>
      have hall (ds : List Char) :
          (fold ds).all Char.isDigit = ds.all Char.isDigit := by
        unfold fold
        rw [List.all_map]
        exact congrArg ds.all (funext isDigit_toLower)
      have hmark : (mark.toLower = 'e' ∨ mark.toLower = 'E')
          ↔ (mark = 'e' ∨ mark = 'E') := by
        simp only [← Char.toNat_inj, Text.toNat_toLower]
        have he : 'e'.toNat = 101 := rfl
        have hE : 'E'.toNat = 69 := rfl
        split <;> omega
      rw [Text.fold_cons, exponent?, exponent?, takeSign_fold]
      dsimp only
      by_cases hd : (takeSign rest).2.all Char.isDigit = true
      · rw [fold_of_digits (List.all_eq_true.1 hd)]
        simp only [← Bool.decide_or, hmark]
      · rw [if_neg (by simp [hall, hd]), if_neg (by simp [hd])]

theorem unsigned?_fold (negative : Bool) (s : List Char) :
    unsigned? negative (fold s) = unsigned? negative s := by
  unfold unsigned?
  rw [takeDigits_fold]
  dsimp only
  rw [takeFraction_fold]
  dsimp only
  rw [exponent?_fold]

end Decimal

/-- A number is read in either case. -/
theorem Binary64.numeral?_fold (s : List Char) :
    numeral? (Text.fold s) = numeral? s := by
  unfold numeral?
  rw [Decimal.takeSign_fold]
  dsimp only
  rw [Text.fold_fold, Decimal.unsigned?_fold]

end TimedOverlay
