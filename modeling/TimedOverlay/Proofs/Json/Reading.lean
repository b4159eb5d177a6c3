/-
What a reader sees of a text that is one JSON value.

The value tells what the outline is like (`Outline.form_of_value`). What
has one can be passed over as well (`Outline.skim_of_value`), and a text
that is an object is an outline of members whose values are known, with
nothing wrong at its end or behind it (`object_of_read`). So of a reader
of such texts only has to be said what it makes of these members. The
same goes for the items of an array (`array_of_read`); of every other
text a record reader reports the value that it is (`reader_of_scalar`).
-/
import TimedOverlay.Json.Strict

namespace TimedOverlay.Json

-- ============================================================= results

theorem map_eq_ok {α β : Type} {f : α → β} {x : Except Error α} {b : β} :
    f <$> x = .ok b ↔ ∃ a, x = .ok a ∧ f a = b := by
  cases x with
  | error e => simp [Functor.map, Except.map]
  | ok a => simp [Functor.map, Except.map]

theorem bind_eq_ok {α β : Type} {x : Except Error α}
    {f : α → Except Error β} {b : β} :
    x >>= f = .ok b ↔ ∃ a, x = .ok a ∧ f a = .ok b := by
  cases x with
  | error e => simp [bind, Except.bind]
  | ok a => simp [bind, Except.bind]

/-- A text that is read has an outline that is read, and ends there. -/
theorem readText_eq_ok {α : Type} {read : Outline → Except Error α}
    {s : String} {a : α} :
    readText read s = .ok a
      ↔ read (Text.scan s).outline = .ok a
        ∧ (Text.scan s).more = false := by
  unfold readText
  dsimp only
  rw [bind_eq_ok]
  cases (Text.scan s).more with
  | false => simp [pure, Except.pure]
  | true => simp [throw, throwThe, MonadExceptOf.throw, bind, Except.bind]

-- ========================================================= reading past

/-- A string that has a text has no fault. -/
theorem Spelling.fault_of_chars {fault : Option StringFault}
    {pieces : List Piece} {cs : List Char}
    (h : chars fault pieces = .ok cs) : fault = none := by
  fun_induction chars fault pieces generalizing cs with
  | case1 hfault => exact hfault
  | case3 c rest ih | case5 n _ hleading m rest htrailing ih
  | case11 n rest _ _ ih =>
      obtain ⟨_, hrest, _⟩ := map_eq_ok.1 h
      exact ih hrest
  | _ => cases h

/-- A string that has a text can be passed over. -/
theorem Spelling.skim_of_text {s : Spelling} {t : String}
    (h : s.text = .ok t) : s.skim = .ok () := by
  obtain ⟨cs, hcs, _⟩ := map_eq_ok.1 h
  unfold skim
  rw [fault_of_chars hcs]

theorem fault_of_closing {fault : Option Fault}
    (h : closing fault = .ok ()) : fault = none := by
  cases fault with
  | none => rfl
  | some f => cases h

namespace Outline

/-- An array with a value is allowed and closed, and its items have
values with one level of nesting less. -/
theorem array_of_value {depth : Nat} {items : List Outline}
    {fault : Option Fault} {v : Value}
    (h : value depth (.array items fault) = .ok v) :
    0 < depth ∧ fault = none
      ∧ ∃ vs, values (depth - 1) items = .ok vs ∧ v = .array vs := by
  rw [value] at h
  split at h
  next => cases h
  next hdepth =>
    obtain ⟨vs, hvs, h⟩ := bind_eq_ok.1 h
    obtain ⟨_, hclosed, heq⟩ := bind_eq_ok.1 h
    cases heq
    exact ⟨Nat.pos_of_ne_zero hdepth, fault_of_closing hclosed, vs, hvs, rfl⟩

/-- An object with a value is allowed and closed, and its members have
values with one level of nesting less. -/
theorem object_of_value {depth : Nat} {members : List (Spelling × Outline)}
    {fault : Option Fault} {v : Value}
    (h : value depth (.object members fault) = .ok v) :
    0 < depth ∧ fault = none
      ∧ ∃ ms, memberValues (depth - 1) members = .ok ms
        ∧ v = .object ms := by
  rw [value] at h
  split at h
  next => cases h
  next hdepth =>
    obtain ⟨ms, hms, h⟩ := bind_eq_ok.1 h
    obtain ⟨_, hclosed, heq⟩ := bind_eq_ok.1 h
    cases heq
    exact ⟨Nat.pos_of_ne_zero hdepth, fault_of_closing hclosed, ms, hms, rfl⟩

/-- The outline of a value: what it is like is told by the value. -/
def Form (depth : Nat) (o : Outline) : Value → Prop
  | .null => o = .null
  | .bool b => o = .bool b
  | .number n => o = .number (some n)
  | .string t => ∃ s, o = .string s ∧ s.text = .ok t
  | .array vs =>
    0 < depth ∧ ∃ os, o = .array os none ∧ values (depth - 1) os = .ok vs
  | .object ms =>
    0 < depth
      ∧ ∃ os, o = .object os none ∧ memberValues (depth - 1) os = .ok ms

theorem form_of_value {depth : Nat} {o : Outline} {v : Value}
    (h : o.value depth = .ok v) : o.Form depth v := by
  cases o with
  | null =>
      cases h
      rfl
  | bool b =>
      cases h
      rfl
  | number n =>
      obtain ⟨n', hn, rfl⟩ := map_eq_ok.1 h
      cases n with
      | none => cases hn
      | some n =>
          cases hn
          rfl
  | string s =>
      obtain ⟨t, ht, rfl⟩ := map_eq_ok.1 h
      exact ⟨s, rfl, ht⟩
  | array os fault =>
      obtain ⟨hdepth, rfl, vs, hvs, rfl⟩ := array_of_value h
      exact ⟨hdepth, os, rfl, hvs⟩
  | object os fault =>
      obtain ⟨hdepth, rfl, ms, hms, rfl⟩ := object_of_value h
      exact ⟨hdepth, os, rfl, hms⟩
  | broken f => cases h

mutual

/-- What has a value can be passed over. -/
theorem skim_of_value {depth : Nat} {o : Outline} {v : Value}
    (h : o.value depth = .ok v) : o.skim = .ok () := by
  cases o with
  | null => rfl
  | bool b => rfl
  | number n => rfl
  | string s =>
      obtain ⟨t, ht, _⟩ := map_eq_ok.1 h
      exact Spelling.skim_of_text ht
  | array items fault =>
      -- A fault at the end would have been reported by the value, too.
      obtain ⟨_, rfl, vs, hvs, _⟩ := array_of_value h
      simp only [skim, skimItems_of_values hvs]
      rfl
  | object members fault =>
      obtain ⟨_, rfl, ms, hms, _⟩ := object_of_value h
      simp only [skim, skimMembers_of_values hms]
      rfl
  | broken f => cases h

theorem skimItems_of_values {depth : Nat} {os : List Outline}
    {vs : List Value} (h : values depth os = .ok vs) :
    skimItems os = .ok () := by
  cases os with
  | nil => rfl
  | cons o rest =>
      obtain ⟨v, hv, h⟩ := bind_eq_ok.1 h
      obtain ⟨vs, hvs, _⟩ := bind_eq_ok.1 h
      rw [skimItems, skim_of_value hv]
      exact skimItems_of_values hvs

theorem skimMembers_of_values {depth : Nat}
    {os : List (Spelling × Outline)} {ms : List (String × Value)}
    (h : memberValues depth os = .ok ms) : skimMembers os = .ok () := by
  cases os with
  | nil => rfl
  | cons p rest =>
      obtain ⟨key, o⟩ := p
      obtain ⟨name, hname, h⟩ := bind_eq_ok.1 h
      obtain ⟨v, hv, h⟩ := bind_eq_ok.1 h
      obtain ⟨ms, hms, _⟩ := bind_eq_ok.1 h
      rw [skimMembers, Spelling.skim_of_text hname, skim_of_value hv]
      exact skimMembers_of_values hms

end

end Outline

-- ============================================================== objects

/-- The members of a text that is an object: each can be read with one
level of nesting less, and nothing is wrong at the end. -/
theorem object_of_read {s : String} {ms : List (String × Value)}
    (h : read s = .ok (.object ms)) :
    (Text.scan s).more = false
      ∧ ∃ os, (Text.scan s).outline = .object os none
        ∧ Outline.memberValues (depthLimit - 1) os = .ok ms := by
  obtain ⟨hvalue, hmore⟩ := readText_eq_ok.1 h
  exact ⟨hmore, (Outline.form_of_value hvalue).2⟩

-- =============================================================== arrays

/-- The items of a text that is an array: each can be read with one level
of nesting less, and nothing is wrong at the end. -/
theorem array_of_read {s : String} {vs : List Value}
    (h : read s = .ok (.array vs)) :
    (Text.scan s).more = false
      ∧ ∃ os, (Text.scan s).outline = .array os none
        ∧ Outline.values (depthLimit - 1) os = .ok vs := by
  obtain ⟨hvalue, hmore⟩ := readText_eq_ok.1 h
  exact ⟨hmore, (Outline.form_of_value hvalue).2⟩

-- ============================================================== scalars

/-- What a reader that wants something else sees of a value. -/
def Value.seen : Value → Seen
  | .null => .null
  | .bool b => .boolean b
  | .number n => .number n
  | .string s => .string s
  | .array _ => .sequence
  | .object _ => .map

/-- Neither an array nor an object. -/
def Value.IsScalar : Value → Prop
  | .array _ => False
  | .object _ => False
  | _ => True

/-- Where a record is wanted, a value of another kind is reported as what
it is. -/
theorem reader_of_scalar {α : Type} (r : Record α) {m : Mode} {depth : Nat}
    {o : Outline} {v : Value} (h : o.value depth = .ok v)
    (hscalar : v.IsScalar) :
    r.reader m o = .error (.wrongType v.seen r.expected) := by
  have hform := Outline.form_of_value h
  cases v with
  | null =>
      obtain rfl : o = .null := hform
      rfl
  | bool b =>
      obtain rfl : o = .bool b := hform
      rfl
  | number n =>
      obtain rfl : o = .number (some n) := hform
      rfl
  | string t =>
      obtain ⟨s, rfl, ht⟩ := hform
      show Except.error (Strict.mismatch r.expected (.string s)) = _
      rw [Strict.mismatch, ht]
      rfl
  | array vs => exact hscalar.elim
  | object ms => exact hscalar.elim

-- ============================================================== records

/-- A member of a record is read by the field of its name, if it has one
that has not been read, and passed over if it has none. -/
theorem Record.readMembers_cons {α : Type} (r : Record α) (m : Mode)
    (fault : Option Fault) (seen : List String) (a : α) {key : Spelling}
    {name : String} (hname : key.text = .ok name) (o : Outline)
    (rest : List (Spelling × Outline)) :
    r.readMembers m fault seen a ((key, o) :: rest)
      = match r.fields.find? (·.name = name) with
        | some f =>
          if name ∈ seen then .error (.duplicateField name)
          else f.read m o a
            >>= fun a => r.readMembers m fault (name :: seen) a rest
        | none =>
          o.skim >>= fun _ => r.readMembers m fault seen a rest := by
  rw [readMembers, hname]
  simp only [bind, Except.bind]
  cases r.fields.find? (·.name = name) with
  | none => rfl
  | some f =>
      by_cases hseen : name ∈ seen
      · simp [hseen, throw, throwThe, MonadExceptOf.throw]
      · simp [hseen]

end TimedOverlay.Json
