/-
What holds of every record that is read.

A property that the record has before anything is read, and that reading
a field keeps, holds of what a record reader gives, whatever the text
(`Record.invariant`). The same goes for lists, whose items are all read
alike.
-/
import TimedOverlay.Proofs.Json.Reading

namespace TimedOverlay.Json

variable {α : Type}

-- =============================================================== scalars

/-- A whole number that is read has no more bits than were allowed. -/
theorem Strict.natural_lt {bits : Nat} {m : Mode} {o : Outline} {n : Nat}
    (h : natural bits m o = .ok n) : n < 2 ^ bits := by
  unfold natural at h
  dsimp only at h
  split at h
  next i =>
    split at h
    next hrange =>
      obtain rfl : i.toNat = n := Except.ok.inj h
      have hbound := hrange.2
      have hpow : ((2 ^ bits : Nat) : Int) = 2 ^ bits := by push_cast; rfl
      omega
    next => cases h
  next => cases h

/-- What may be null and is not was read as itself. -/
theorem Strict.optional_some {read : Reader α} {m : Mode} {o : Outline}
    {a : α} (h : optional read m o = .ok (some a)) : read m o = .ok a := by
  unfold optional at h
  split at h
  next => cases h
  next =>
    obtain ⟨b, hb, heq⟩ := map_eq_ok.1 h
    cases heq
    exact hb

-- ================================================================= lists

/-- What holds of each item that is read holds of all items. -/
theorem Strict.items_forall {P : α → Prop} {read : Reader α} {m : Mode}
    (hread : ∀ o a, read m o = .ok a → P a) {os : List Outline}
    {as : List α} (h : items read m os = .ok as) : ∀ a ∈ as, P a := by
  induction os generalizing as with
  | nil =>
      cases h
      simp
  | cons o rest ih =>
      obtain ⟨a, ha, h⟩ := bind_eq_ok.1 h
      obtain ⟨as', has, h⟩ := bind_eq_ok.1 h
      cases h
      exact List.forall_mem_cons.2 ⟨hread o a ha, ih has⟩

theorem Strict.list_forall {P : α → Prop} {read : Reader α}
    (hread : ∀ m o a, read m o = .ok a → P a) {m : Mode} {o : Outline}
    {as : List α} (h : list read m o = .ok as) : ∀ a ∈ as, P a := by
  unfold list at h
  split at h
  next os fault =>
    obtain ⟨m', _, h⟩ := bind_eq_ok.1 h
    obtain ⟨as', has, h⟩ := bind_eq_ok.1 h
    obtain ⟨_, _, heq⟩ := bind_eq_ok.1 h
    cases heq
    exact items_forall (hread m') has
  next => cases h

-- =============================================================== records

namespace Record

/-- Reading any field keeps a property of the record. -/
def Keeps (r : Record α) (P : α → Prop) : Prop :=
  ∀ f ∈ r.fields, ∀ m o a b, P a → f.read m o a = .ok b → P b

variable {r : Record α} {P : α → Prop} {m : Mode} {fault : Option Fault}

/-- Members keep what every field keeps. -/
theorem readMembers_keeps (hkeeps : r.Keeps P) {seen : List String}
    {a b : α} {os : List (Spelling × Outline)} (ha : P a)
    (h : r.readMembers m fault seen a os = .ok b) : P b := by
  induction os generalizing seen a with
  | nil =>
      obtain ⟨_, _, h⟩ := bind_eq_ok.1 h
      split at h
      next => cases h
      next =>
        cases h
        exact ha
  | cons p rest ih =>
      obtain ⟨key, o⟩ := p
      obtain ⟨name, hname, _⟩ := bind_eq_ok.1 h
      rw [readMembers_cons _ _ _ _ _ hname] at h
      split at h
      next f hf =>
        split at h
        next => cases h
        next =>
          obtain ⟨c, hc, h⟩ := bind_eq_ok.1 h
          have hmem := List.mem_of_find?_eq_some hf
          exact ih (hkeeps f hmem m o a c ha hc) h
      next =>
        obtain ⟨_, _, h⟩ := bind_eq_ok.1 h
        exact ih ha h

theorem readItems_keeps (hkeeps : r.Keeps P) {count index : Nat} {a b : α}
    {fs : List (Field α)} (hfs : ∀ f ∈ fs, f ∈ r.fields)
    {os : List Outline} (ha : P a)
    (h : r.readItems m fault count index a fs os = .ok b) : P b := by
  induction fs generalizing index a os with
  | nil =>
      obtain ⟨_, _, h⟩ := bind_eq_ok.1 h
      cases h
      exact ha
  | cons f fs ih =>
      cases os with
      | nil =>
          obtain ⟨_, _, h⟩ := bind_eq_ok.1 h
          split at h
          next => cases h
          next =>
            cases h
            exact ha
      | cons o os =>
          obtain ⟨c, hc, h⟩ := bind_eq_ok.1 h
          have hmem := hfs f List.mem_cons_self
          exact ih (fun g hg => hfs g (List.mem_cons_of_mem f hg))
            (hkeeps f hmem m o a c ha hc) h

/-- What holds before anything is read and is kept by every field holds
of the record that is read. -/
theorem invariant (hstart : P r.start) (hkeeps : r.Keeps P) {o : Outline}
    {a : α} (h : r.reader m o = .ok a) : P a := by
  unfold reader at h
  split at h
  next =>
    obtain ⟨_, _, h⟩ := bind_eq_ok.1 h
    exact readMembers_keeps hkeeps hstart h
  next =>
    obtain ⟨_, _, h⟩ := bind_eq_ok.1 h
    exact readItems_keeps hkeeps (fun _ hf => hf) hstart h
  next => cases h

theorem ofText_invariant (hstart : P r.start) (hkeeps : r.Keeps P)
    {s : String} {a : α} (h : r.ofText s = .ok a) : P a :=
  invariant hstart hkeeps (readText_eq_ok.1 h).1

end Record

end TimedOverlay.Json
