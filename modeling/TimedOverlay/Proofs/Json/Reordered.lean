/-
Values up to the order of members, and the outlines that hold them.

An object has the same members in whatever order they are written
(`Value.Reordered`). An outline holds a value if it is read as that value
with the members of its objects in some order (`Outline.Holds`); what
form it then has follows from the value alone, one lemma for each form.
Every value has an outline of its own, which is read as that value at the
depth of its nesting and at any greater one (`Value.value_outline`,
`Outline.value_mono`).
-/
import Mathlib.Data.List.Forall2
import TimedOverlay.Proofs.Json.Reading

namespace TimedOverlay.Json

-- ================================================================ values

/-- The same value, the members of objects in any order. -/
inductive Value.Reordered : Value → Value → Prop where
  | same (v : Value) : Reordered v v
  | array {vs ws : List Value} (items : List.Forall₂ Reordered vs ws) :
      Reordered (.array vs) (.array ws)
  | object {ms ms' ns : List (String × Value)} (order : ms.Perm ms')
      (names : ms'.map Prod.fst = ns.map Prod.fst)
      (values : List.Forall₂ Reordered (ms'.map Prod.snd)
        (ns.map Prod.snd)) :
      Reordered (.object ms) (.object ns)

namespace Outline

-- ================================================================= parts

theorem forall₂_of_values {depth : Nat} {os : List Outline}
    {vs : List Value} (h : values depth os = .ok vs) :
    List.Forall₂ (fun v o => o.value depth = .ok v) vs os := by
  induction os generalizing vs with
  | nil =>
      cases h
      exact .nil
  | cons o rest ih =>
      obtain ⟨v, hv, h⟩ := bind_eq_ok.1 h
      obtain ⟨vs', hvs, h⟩ := bind_eq_ok.1 h
      cases h
      exact .cons hv (ih hvs)

theorem forall₂_of_memberValues {depth : Nat}
    {os : List (Spelling × Outline)} {ms : List (String × Value)}
    (h : memberValues depth os = .ok ms) :
    List.Forall₂ (fun p q => q.1.text = .ok p.1 ∧ q.2.value depth = .ok p.2)
      ms os := by
  induction os generalizing ms with
  | nil =>
      cases h
      exact .nil
  | cons q rest ih =>
      obtain ⟨key, o⟩ := q
      obtain ⟨name, hname, h⟩ := bind_eq_ok.1 h
      obtain ⟨v, hv, h⟩ := bind_eq_ok.1 h
      obtain ⟨ms', hms, h⟩ := bind_eq_ok.1 h
      cases h
      exact .cons ⟨hname, hv⟩ (ih hms)

-- ================================================================= depth

mutual

/-- What is read with some nesting allowed is read the same with more. -/
theorem value_mono {depth more : Nat} (hmore : depth ≤ more) {o : Outline}
    {v : Value} (h : o.value depth = .ok v) : o.value more = .ok v := by
  cases o with
  | null => exact h
  | bool b => exact h
  | number n => exact h
  | string s => exact h
  | array os fault =>
      obtain ⟨hpos, rfl, vs, hvs, rfl⟩ := array_of_value h
      rw [value, if_neg (by omega), values_mono (by omega) hvs]
      rfl
  | object os fault =>
      obtain ⟨hpos, rfl, ms, hms, rfl⟩ := object_of_value h
      rw [value, if_neg (by omega), memberValues_mono (by omega) hms]
      rfl
  | broken f => exact h

theorem values_mono {depth more : Nat} (hmore : depth ≤ more)
    {os : List Outline} {vs : List Value} (h : values depth os = .ok vs) :
    values more os = .ok vs := by
  cases os with
  | nil => exact h
  | cons o rest =>
      obtain ⟨v, hv, h⟩ := bind_eq_ok.1 h
      obtain ⟨vs', hvs, h⟩ := bind_eq_ok.1 h
      cases h
      rw [values, value_mono hmore hv, values_mono hmore hvs]
      rfl

theorem memberValues_mono {depth more : Nat} (hmore : depth ≤ more)
    {os : List (Spelling × Outline)} {ms : List (String × Value)}
    (h : memberValues depth os = .ok ms) : memberValues more os = .ok ms := by
  cases os with
  | nil => exact h
  | cons q rest =>
      obtain ⟨key, o⟩ := q
      obtain ⟨name, hname, h⟩ := bind_eq_ok.1 h
      obtain ⟨v, hv, h⟩ := bind_eq_ok.1 h
      obtain ⟨ms', hms, h⟩ := bind_eq_ok.1 h
      cases h
      rw [memberValues, hname, value_mono hmore hv,
        memberValues_mono hmore hms]
      rfl

end

end Outline

mutual

/-- How deep the arrays and objects of a value are nested. -/
def Value.levels : Value → Nat
  | .array items => itemLevels items + 1
  | .object members => memberLevels members + 1
  | .null => 0
  | .bool _ => 0
  | .number _ => 0
  | .string _ => 0

/-- The depth of the deepest item. -/
def itemLevels : List Value → Nat
  | [] => 0
  | v :: rest => max v.levels (itemLevels rest)

/-- The depth of the deepest member. -/
def memberLevels : List (String × Value) → Nat
  | [] => 0
  | (_, v) :: rest => max v.levels (memberLevels rest)

end

/-- A plain spelling spells its string. -/
theorem Spelling.text_plain (s : String) : (plain s).text = .ok s := by
  have hchars : ∀ cs : List Char,
      chars none (cs.map Piece.char) = .ok cs := by
    intro cs
    induction cs with
    | nil => rfl
    | cons c cs ih =>
        rw [List.map_cons, chars, ih]
        rfl
  rw [text, plain, hchars]
  exact congrArg Except.ok s.ofList_toList

mutual

/-- The outline of a value is read as the value. -/
theorem Value.value_outline (v : Value) :
    v.outline.value v.levels = .ok v := by
  cases v with
  | null => rfl
  | bool b => rfl
  | number n => rfl
  | string s =>
      rw [Value.outline, Outline.value, Spelling.text_plain]
      rfl
  | array vs =>
      rw [Value.outline, Value.levels, Outline.value,
        if_neg (Nat.succ_ne_zero _), Nat.add_sub_cancel,
        values_outline vs]
      rfl
  | object ms =>
      rw [Value.outline, Value.levels, Outline.value,
        if_neg (Nat.succ_ne_zero _), Nat.add_sub_cancel,
        memberValues_outline ms]
      rfl

theorem values_outline (vs : List Value) :
    Outline.values (itemLevels vs) (itemOutlines vs) = .ok vs := by
  cases vs with
  | nil => rfl
  | cons v vs =>
      rw [itemOutlines, itemLevels, Outline.values,
        Outline.value_mono (Nat.le_max_left _ _) v.value_outline,
        Outline.values_mono (Nat.le_max_right _ _) (values_outline vs)]
      rfl

theorem memberValues_outline (ms : List (String × Value)) :
    Outline.memberValues (memberLevels ms) (memberOutlines ms)
      = .ok ms := by
  cases ms with
  | nil => rfl
  | cons p ms =>
      obtain ⟨name, v⟩ := p
      rw [memberOutlines, memberLevels, Outline.memberValues,
        Spelling.text_plain,
        Outline.value_mono (Nat.le_max_left _ _) v.value_outline,
        Outline.memberValues_mono (Nat.le_max_right _ _)
          (memberValues_outline ms)]
      rfl

end

-- =============================================================== holding

/-- An outline holds a value: with `depth` levels of nesting allowed it is
read as that value, the members of objects in any order. -/
def Outline.Holds (depth : Nat) (v : Value) (o : Outline) : Prop :=
  ∃ w, v.Reordered w ∧ o.value depth = .ok w

/-- A member of an outline holds a member of a value. -/
def Outline.HoldsMember (depth : Nat) (p : String × Value)
    (q : Spelling × Outline) : Prop :=
  q.1.text = .ok p.1 ∧ Holds depth p.2 q.2

theorem Outline.forall₂_holds {depth : Nat} {vs ws : List Value}
    {os : List Outline} (hitems : List.Forall₂ Value.Reordered vs ws)
    (hos : List.Forall₂ (fun w o => o.value depth = .ok w) ws os) :
    List.Forall₂ (Holds depth) vs os := by
  induction hitems generalizing os with
  | nil =>
      cases hos
      exact .nil
  | cons hv _ ih =>
      cases hos with
      | cons ho hos => exact .cons ⟨_, hv, ho⟩ (ih hos)

theorem Outline.forall₂_holdsMember {depth : Nat} :
    ∀ {ms ns : List (String × Value)} {os : List (Spelling × Outline)},
      ms.map Prod.fst = ns.map Prod.fst →
      List.Forall₂ Value.Reordered (ms.map Prod.snd) (ns.map Prod.snd) →
      List.Forall₂
        (fun p q => q.1.text = .ok p.1 ∧ q.2.value depth = .ok p.2) ns os →
      List.Forall₂ (HoldsMember depth) ms os
  | [], [], [], _, _, _ => .nil
  | p :: ms, q :: ns, o :: os, hnames, .cons hv hvalues, .cons ho hos => by
    obtain ⟨hname, hnames⟩ := List.cons.inj hnames
    exact .cons ⟨hname ▸ ho.1, _, hv, ho.2⟩
      (forall₂_holdsMember hnames hvalues hos)

namespace Outline.Holds

variable {depth : Nat} {o : Outline}

theorem skim {v : Value} (h : o.Holds depth v) : o.skim = .ok () := by
  obtain ⟨w, _, hw⟩ := h
  exact skim_of_value hw

/-- What holds a value has one, with any deeper nesting allowed. -/
theorem exists_value {v : Value} {more : Nat} (hmore : depth ≤ more)
    (h : o.Holds depth v) : ∃ w, o.value more = .ok w := by
  obtain ⟨w, _, hw⟩ := h
  exact ⟨w, value_mono hmore hw⟩

/-- Nothing but null is held by null. -/
theorem of_null {v : Value} (h : Outline.null.Holds depth v) :
    v = .null := by
  obtain ⟨w, hw, hvalue⟩ := h
  cases hvalue
  cases hw
  rfl

theorem null (h : o.Holds depth .null) : o = .null := by
  obtain ⟨w, hsame, hw⟩ := h
  cases hsame
  exact form_of_value hw

theorem bool {b : Bool} (h : o.Holds depth (.bool b)) : o = .bool b := by
  obtain ⟨w, hsame, hw⟩ := h
  cases hsame
  exact form_of_value hw

theorem number {n : Number} (h : o.Holds depth (.number n)) :
    o = .number (some n) := by
  obtain ⟨w, hsame, hw⟩ := h
  cases hsame
  exact form_of_value hw

theorem string {t : String} (h : o.Holds depth (.string t)) :
    ∃ s, o = .string s ∧ s.text = .ok t := by
  obtain ⟨w, hsame, hw⟩ := h
  cases hsame
  exact form_of_value hw

theorem array {vs : List Value} (h : o.Holds depth (.array vs)) :
    0 < depth
      ∧ ∃ os, o = .array os none
        ∧ List.Forall₂ (Outline.Holds (depth - 1)) vs os := by
  obtain ⟨w, hw, hvalue⟩ := h
  -- Whichever rule was used, the items agree one by one.
  obtain ⟨ws, rfl, hitems⟩ :
      ∃ ws, w = .array ws ∧ List.Forall₂ Value.Reordered vs ws := by
    cases hw with
    | same => exact ⟨vs, rfl, List.forall₂_same.2 fun v _ => .same v⟩
    | array hitems => exact ⟨_, rfl, hitems⟩
  obtain ⟨hpos, os, rfl, hos⟩ := form_of_value hvalue
  exact ⟨hpos, os, rfl, forall₂_holds hitems (forall₂_of_values hos)⟩

theorem object {ms : List (String × Value)}
    (h : o.Holds depth (.object ms)) :
    0 < depth
      ∧ ∃ ms' os, ms.Perm ms' ∧ o = .object os none
        ∧ List.Forall₂ (HoldsMember (depth - 1)) ms' os := by
  obtain ⟨w, hw, hvalue⟩ := h
  obtain ⟨ms', ns, rfl, hperm, hnames, hvalues⟩ :
      ∃ ms' ns, w = .object ns ∧ ms.Perm ms'
        ∧ ms'.map Prod.fst = ns.map Prod.fst
        ∧ List.Forall₂ Value.Reordered (ms'.map Prod.snd)
          (ns.map Prod.snd) := by
    cases hw with
    | same =>
        exact ⟨ms, ms, rfl, .refl ms, rfl,
          List.forall₂_same.2 fun v _ => .same v⟩
    | object hperm hnames hvalues =>
        exact ⟨_, _, rfl, hperm, hnames, hvalues⟩
  obtain ⟨hpos, os, rfl, hos⟩ := form_of_value hvalue
  exact ⟨hpos, ms', os, hperm, rfl,
    forall₂_holdsMember hnames hvalues (forall₂_of_memberValues hos)⟩

end Outline.Holds

end TimedOverlay.Json
