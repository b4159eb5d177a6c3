/-
Readers that take back what was written.

A reader restores a part from its value if it gives the part for every
outline that holds the value, provided that the value tells all of it,
and fails for each of them if it does not (`Restores`). A part that JSON
has no form for is written as something else; it must not come back as
another part.

Readers are put together from readers of parts, and what they restore is
put together likewise. A record is restored if each of its fields is,
whatever the order of its members and whatever else is written beside
them (`Record.restores`): reading a member puts one part in its place,
and parts in different places may be put there in any order.
-/
import Mathlib.Data.List.Perm.Basic
import TimedOverlay.Proofs.Json.Reordered

namespace TimedOverlay.Json

variable {α β γ : Type}

-- =============================================================== results

/-- A result that is `b` if `p` holds, and an error otherwise. -/
structure Yields (x : Except Error β) (p : Prop) (b : β) : Prop where
  ok : p → x = .ok b
  error : ¬ p → ∃ e, x = .error e

namespace Yields

variable {x : Except Error β} {f : β → Except Error γ} {p q : Prop} {b : β}
  {c : γ}

theorem of_ok (h : x = .ok b) : Yields x True b :=
  ⟨fun _ => h, fun hfalse => (hfalse trivial).elim⟩

theorem iff (h : Yields x p b) (hpq : p ↔ q) : Yields x q b :=
  ⟨fun hq => h.ok (hpq.2 hq), fun hq => h.error (mt hpq.1 hq)⟩

theorem map (h : Yields x p b) (g : β → γ) : Yields (g <$> x) p (g b) := by
  constructor
  · intro hp
    rw [h.ok hp]
    rfl
  · intro hp
    obtain ⟨e, he⟩ := h.error hp
    exact ⟨e, by rw [he]; rfl⟩

theorem bind (h : Yields x p b) (hf : Yields (f b) q c) :
    Yields (x >>= f) (p ∧ q) c := by
  constructor
  · rintro ⟨hp, hq⟩
    rw [h.ok hp]
    exact hf.ok hq
  · intro hpq
    by_cases hp : p
    · rw [h.ok hp]
      exact hf.error fun hq => hpq ⟨hp, hq⟩
    · obtain ⟨e, he⟩ := h.error hp
      exact ⟨e, by rw [he]; rfl⟩

theorem ok_iff (h : Yields x p b) : x = .ok b ↔ p := by
  constructor
  · intro hx
    by_contra hp
    obtain ⟨e, he⟩ := h.error hp
    rw [hx] at he
    cases he
  · exact h.ok

end Yields

-- ================================================================= modes

namespace Mode

/-- The mode inside an array or object. -/
def inner (m : Mode) : Mode :=
  if m.buffered then m else ⟨m.depth - 1, false⟩

/-- Nothing of the given depth is too deep for a mode. -/
def Admits (m : Mode) (depth : Nat) : Prop :=
  m.buffered = true ∨ depth ≤ m.depth

variable {m : Mode} {depth : Nat}

theorem Admits.enter (h : m.Admits depth) (hpos : 0 < depth) :
    m.enter = .ok m.inner := by
  unfold Mode.enter Mode.inner
  split
  next => rfl
  next hbuffered =>
    rw [if_neg]
    have hle := h.resolve_left hbuffered
    omega

theorem Admits.mono {less : Nat} (h : m.Admits depth) (hless : less ≤ depth) :
    m.Admits less :=
  h.imp_right (Nat.le_trans hless)

theorem Admits.inner (h : m.Admits depth) :
    m.inner.Admits (depth - 1) := by
  unfold Mode.inner
  split
  next hbuffered => exact .inl hbuffered
  next hbuffered =>
    exact .inr (Nat.sub_le_sub_right (h.resolve_left hbuffered) 1)

theorem le_depth_inner (h : depth ≤ m.depth) : depth - 1 ≤ m.inner.depth := by
  unfold Mode.inner
  split
  · exact Nat.le_trans (Nat.sub_le depth 1) h
  · exact Nat.sub_le_sub_right h 1

end Mode

-- ============================================================= restoring

/-- In the given mode a reader gives `b` for what holds `v` if `p` holds,
and fails otherwise. -/
def Restores (m : Mode) (depth : Nat) (read : Reader β) (v : Value)
    (p : Prop) (b : β) : Prop :=
  ∀ o : Outline, o.Holds depth v → Yields (read m o) p b

namespace Restores

variable {m : Mode} {depth : Nat} {read : Reader β} {v : Value} {p q : Prop}
  {b : β}

theorem iff (h : Restores m depth read v p b) (hpq : p ↔ q) :
    Restores m depth read v q b :=
  fun o ho => (h o ho).iff hpq

theorem map (h : Restores m depth read v p b) (g : β → γ) :
    Restores m depth (fun m o => g <$> read m o) v p (g b) :=
  fun o ho => (h o ho).map g

-- -------------------------------------------------------------- scalars

theorem text (expected s : String) :
    Restores m depth (Strict.text expected) (.string s) True s := by
  intro o ho
  obtain ⟨t, rfl, ht⟩ := ho.string
  exact .of_ok ht

theorem boolean (b : Bool) :
    Restores m depth Strict.boolean (.bool b) True b := by
  intro o ho
  obtain rfl := ho.bool
  exact .of_ok rfl

theorem natural {bits n : Nat} (hn : n < 2 ^ bits) :
    Restores m depth (Strict.natural bits) (.ofNat n) True n := by
  intro o ho
  obtain rfl := ho.number
  refine .of_ok ?_
  have hrange : (0 : Int) ≤ n ∧ (n : Int) < 2 ^ bits :=
    ⟨Int.natCast_nonneg n, by exact_mod_cast hn⟩
  unfold Strict.natural
  dsimp only
  rw [if_pos hrange, Int.toNat_natCast]

-- ------------------------------------------------- optional parts, lists

theorem optional {write : β → Value} {sound : β → Prop}
    (hread : ∀ b, Restores m depth read (write b) (sound b) b)
    (hnull : ∀ b, write b ≠ .null) (a : Option β) :
    Restores m depth (Strict.optional read) (.ofOption write a)
      (∀ b ∈ a, sound b) a := by
  intro o ho
  cases a with
  | none =>
      obtain rfl := ho.null
      exact (Yields.of_ok rfl).iff (by simp)
  | some b =>
      have hsome : Strict.optional read m o = some <$> read m o := by
        unfold Strict.optional
        split
        next => exact (hnull b ho.of_null).elim
        next => rfl
      rw [hsome]
      exact ((hread b o ho).map some).iff (by simp)

theorem items {write : β → Value} {sound : β → Prop} {bs : List β}
    (hread : ∀ b, Restores m depth read (write b) (sound b) b)
    {os : List Outline}
    (hos : List.Forall₂ (Outline.Holds depth) (bs.map write) os) :
    Yields (Strict.items read m os) (∀ b ∈ bs, sound b) bs := by
  induction bs generalizing os with
  | nil =>
      cases hos
      exact (Yields.of_ok rfl).iff (by simp)
  | cons b bs ih =>
      cases hos with
      | cons ho hos =>
          have hrest := (ih hos).map (b :: ·)
          refine ((hread b _ ho).bind ?_).iff List.forall_mem_cons.symm
          exact hrest

theorem list {write : β → Value} {sound : β → Prop} (hm : m.Admits depth)
    (hread : ∀ b, Restores m.inner (depth - 1) read (write b) (sound b) b)
    (bs : List β) :
    Restores m depth (Strict.list read) (.array (bs.map write))
      (∀ b ∈ bs, sound b) bs := by
  intro o ho
  obtain ⟨hpos, os, rfl, hos⟩ := ho.array
  unfold Strict.list
  dsimp only
  rw [hm.enter hpos]
  exact ((items hread hos).bind (.of_ok rfl)).iff (iff_of_eq (and_true _))

end Restores

-- =============================================================== records

/-- A member of a record as it was written: its name and value, what
reading it puts into the record, and whether its value tells all of it. -/
structure Written (α : Type) where
  name : String
  value : Value
  sound : Prop
  put : α → α

namespace Written

/-- A written member of an object. -/
def member (p : Written α) : String × Value := (p.name, p.value)

/-- A member that is no part of the record. -/
def beside (q : String × Value) : Written α := ⟨q.1, q.2, True, id⟩

end Written

/-- A field puts a member into the record. -/
def Field.Restores (m : Mode) (depth : Nat) (f : Field α) (p : Written α) :
    Prop :=
  f.name = p.name
    ∧ ∀ a, Json.Restores m depth (fun m o => f.read m o a) p.value p.sound
      (p.put a)

theorem Field.Restores.of {m : Mode} {depth : Nat} {read : Reader β}
    {v : Value} {p : Prop} {b : β} (h : Json.Restores m depth read v p b)
    (name : String) (presence : Presence) (set : α → β → α) :
    (Field.of name presence read set).Restores m depth
      ⟨name, v, p, (set · b)⟩ :=
  ⟨rfl, fun a => h.map (set a)⟩

namespace Record

variable {r : Record α} {m : Mode} {depth : Nat}

/-- A record takes a member: one of its fields restores it, or none is
named like it and nothing comes of it. -/
def Takes (r : Record α) (m : Mode) (depth : Nat) (p : Written α) : Prop :=
  (∃ f ∈ r.fields, f.Restores m depth p)
    ∨ p.name ∉ r.fields.map (·.name) ∧ p.sound ∧ ∀ a, p.put a = a

/-- Fields restore the members of their names. -/
theorem names_of_fields {fs : List (Field α)} {ws : List (Written α)}
    (hfields : List.Forall₂ (Field.Restores m depth) fs ws) :
    ws.map (·.name) = fs.map (·.name) := by
  induction hfields with
  | nil => rfl
  | cons hf _ ih => rw [List.map_cons, List.map_cons, ih, hf.1]

theorem exists_field_of_mem {fs : List (Field α)} {ws : List (Written α)}
    (hfields : List.Forall₂ (Field.Restores m depth) fs ws)
    {p : Written α} (hp : p ∈ ws) : ∃ f ∈ fs, f.Restores m depth p := by
  induction hfields with
  | nil => cases hp
  | cons hf _ ih =>
      rcases List.mem_cons.1 hp with rfl | hp
      · exact ⟨_, List.mem_cons_self, hf⟩
      · obtain ⟨f, hmem, hf⟩ := ih hp
        exact ⟨f, List.mem_cons_of_mem _ hmem, hf⟩

/-- Where no two fields have one name, a name leads to its field. -/
theorem find?_of_mem {fs : List (Field α)} (hnodup : (fs.map (·.name)).Nodup)
    {f : Field α} (hf : f ∈ fs) : fs.find? (·.name = f.name) = some f := by
  induction fs with
  | nil => cases hf
  | cons g fs ih =>
      obtain ⟨hfirst, hrest⟩ := List.nodup_cons.1 hnodup
      rcases List.mem_cons.1 hf with rfl | hf
      · simp
      · have hne : g.name ≠ f.name := by
          intro heq
          exact hfirst (List.mem_map.2 ⟨f, hf, heq.symm⟩)
        rw [List.find?_cons_of_neg (by simpa using hne), ih hrest hf]

/-- No field has two members to read; what no field reads may stand there
more than once. -/
def Apart (r : Record α) (ws : List (Written α)) : Prop :=
  ws.Pairwise fun p q => p.name = q.name → p.name ∉ r.fields.map (·.name)

/-- Members that a record takes are put into it one after another, if none
is missing that it cannot do without. -/
theorem readMembers_yields (hfields : (r.fields.map (·.name)).Nodup)
    {ws : List (Written α)} {os : List (Spelling × Outline)}
    (hos : List.Forall₂
      (fun p q => Outline.HoldsMember depth p.member q) ws os)
    (htakes : ∀ p ∈ ws, r.Takes m depth p) {seen : List String}
    (hapart : r.Apart ws) (hseen : ∀ p ∈ ws, p.name ∉ seen)
    (hall : ∀ f ∈ r.fields, f.presence = .required →
      f.name ∈ seen ∨ f.name ∈ ws.map (·.name))
    (a : α) :
    Yields (r.readMembers m none seen a os) (∀ p ∈ ws, p.sound)
      (ws.foldl (fun a p => p.put a) a) := by
  induction hos generalizing seen a with
  | nil =>
      have hnone : r.fields.find?
          (fun f => f.presence = .required && !seen.contains f.name)
          = none := by
        rw [List.find?_eq_none]
        intro f hf
        have hmem : f.presence = .required → f.name ∈ seen := by
          simpa using hall f hf
        simpa using hmem
      refine (Yields.of_ok ?_).iff (by simp)
      rw [readMembers, hnone]
      rfl
  | @cons p q ws os hq _ ih =>
      obtain ⟨key, o⟩ := q
      obtain ⟨hname, ho⟩ := hq
      obtain ⟨hfirst, hrest⟩ := List.pairwise_cons.1 hapart
      have hothers := fun p hp => htakes p (List.mem_cons_of_mem _ hp)
      have hseen' := fun p hp => hseen p (List.mem_cons_of_mem _ hp)
      rw [readMembers_cons _ _ _ _ _ hname]
      rcases htakes p List.mem_cons_self with ⟨f, hf, heq, hread⟩ | hbeside
      · -- The field of this name is read here and nowhere behind.
        have hfind : r.fields.find? (·.name = p.name) = some f :=
          heq ▸ find?_of_mem hfields hf
        rw [Written.member, hfind]
        dsimp only
        rw [if_neg (hseen p List.mem_cons_self)]
        refine ((hread a o ho).bind (ih hothers hrest ?_ ?_ _)).iff
          List.forall_mem_cons.symm
        · intro p' hp' hmem
          rcases List.mem_cons.1 hmem with heq' | hmem
          · exact hfirst p' hp' heq'.symm (List.mem_map.2 ⟨f, hf, heq⟩)
          · exact hseen' p' hp' hmem
        · intro g hg hrequired
          rcases hall g hg hrequired with hg | hg
          · exact .inl (List.mem_cons_of_mem _ hg)
          · rcases List.mem_cons.1 hg with hg | hg
            · exact .inl (hg ▸ List.mem_cons_self)
            · exact .inr hg
      · -- No field has this name, so the member is passed over.
        obtain ⟨hunknown, hsound, hput⟩ := hbeside
        have hfind : r.fields.find? (·.name = p.name) = none := by
          rw [List.find?_eq_none]
          intro f hf heq
          exact hunknown (List.mem_map.2 ⟨f, hf, by simpa using heq⟩)
        rw [Written.member, hfind]
        dsimp only
        rw [ho.skim, List.foldl_cons, hput]
        refine (ih hothers hrest hseen' ?_ a).iff ?_
        · intro g hg hrequired
          refine (hall g hg hrequired).imp_right fun hmem => ?_
          rcases List.mem_cons.1 hmem with heq | hmem
          · exact (hunknown (List.mem_map.2 ⟨g, hg, heq⟩)).elim
          · exact hmem
        · rw [List.forall_mem_cons]
          exact (and_iff_right hsound).symm

/-- Each part has a place of its own: any two may be put there in either
order. -/
def Commute (ws : List (Written α)) : Prop :=
  ∀ p ∈ ws, ∀ q ∈ ws, ∀ a, q.put (p.put a) = p.put (q.put a)

/-- A record that takes every member of an object is restored from it, in
whatever order they are read. -/
theorem restores_of_takes (henter : 0 < depth → m.enter = .ok m.inner)
    (hfields : (r.fields.map (·.name)).Nodup) {ws : List (Written α)}
    (htakes : ∀ p ∈ ws, r.Takes m.inner (depth - 1) p)
    (hapart : r.Apart ws)
    (hall : ∀ f ∈ r.fields, f.presence = .required →
      f.name ∈ ws.map (·.name))
    (hcommute : Commute ws) :
    Restores m depth r.reader (.object (ws.map Written.member))
      (∀ p ∈ ws, p.sound) (ws.foldl (fun a p => p.put a) r.start) := by
  intro o ho
  obtain ⟨hpos, ms, os, hperm, rfl, hos⟩ := ho.object
  obtain ⟨us, rfl, hus⟩ :
      ∃ us : List (Written α), ms = us.map Written.member ∧ us.Perm ws :=
    (iff_of_eq (congrFun₂ (List.eq_map_comp_perm _) ms ws)).2 hperm.symm
  have hmem : ∀ p, p ∈ us ↔ p ∈ ws := fun p => hus.mem_iff
  have hfold : us.foldl (fun a p => p.put a) r.start
      = ws.foldl (fun a p => p.put a) r.start :=
    hus.foldl_eq' (fun p hp q hq a =>
      hcommute p ((hmem p).1 hp) q ((hmem q).1 hq) a) _
  have hapart' : r.Apart us :=
    (hus.pairwise_iff fun h heq => heq ▸ h heq.symm).2 hapart
  unfold reader
  dsimp only
  rw [henter hpos, ← hfold]
  refine (readMembers_yields hfields (List.forall₂_map_left_iff.1 hos)
    (fun p hp => htakes p ((hmem p).1 hp)) hapart'
    (fun _ _ => List.not_mem_nil) (fun f hf hrequired =>
      .inr ((hus.map _).mem_iff.2 (hall f hf hrequired))) r.start).iff ?_
  exact forall_congr' fun p => imp_congr_left (hmem p)

/-- A record is restored from some of the members that its fields restore,
in any order and among others. None may be missing that it cannot do
without; the rest is as it was at the start. -/
theorem restores_of_sublist (henter : 0 < depth → m.enter = .ok m.inner)
    {ws us : List (Written α)}
    (hfields : List.Forall₂ (Field.Restores m.inner (depth - 1)) r.fields ws)
    (hsome : us.Sublist ws)
    (hall : ∀ f ∈ r.fields, f.presence = .required →
      f.name ∈ us.map (·.name))
    (hnodup : (r.fields.map (·.name)).Nodup) {others : List (String × Value)}
    (hothers : ∀ q ∈ others, q.1 ∉ r.fields.map (·.name))
    (hcommute : Commute ws) :
    Restores m depth r.reader (.object (others ++ us.map Written.member))
      (∀ p ∈ us, p.sound) (us.foldl (fun a p => p.put a) r.start) := by
  have hbeside : ∀ {p : Written α}, p ∈ others.map Written.beside →
      p.name ∉ r.fields.map (·.name) ∧ p.sound ∧ ∀ a, p.put a = a := by
    intro p hp
    obtain ⟨q, hq, rfl⟩ := List.mem_map.1 hp
    exact ⟨hothers q hq, trivial, fun _ => rfl⟩
  -- What is beside the record is a member like its parts, to no effect.
  have hmembers : (others.map Written.beside ++ us).map Written.member
      = others ++ us.map Written.member := by
    rw [List.map_append, List.map_map]
    congr 1
    exact List.map_id others
  have hput : ∀ a, (others.map Written.beside).foldl
      (fun a (p : Written α) => p.put a) a = a := by
    intro a
    rw [List.foldl_map]
    exact List.foldl_fixed' (fun q => rfl) others
  have hnames : (us.map (·.name)).Nodup :=
    ((hsome.map _).nodup (names_of_fields hfields ▸ hnodup))
  have hapart : r.Apart (others.map Written.beside ++ us) := by
    refine List.pairwise_append.2 ⟨?_, ?_, ?_⟩
    · exact List.pairwise_of_forall_mem_list fun p hp _ _ _ =>
        (hbeside hp).1
    · exact (List.pairwise_map.1 hnames).imp fun hne heq => (hne heq).elim
    · exact fun p hp _ _ _ => (hbeside hp).1
  have htakes : ∀ p ∈ others.map Written.beside ++ us,
      r.Takes m.inner (depth - 1) p := by
    intro p hp
    rcases List.mem_append.1 hp with hp | hp
    · exact .inr (hbeside hp)
    · exact .inl (exists_field_of_mem hfields (hsome.subset hp))
  have hcommute' : Commute (others.map Written.beside ++ us) := by
    intro p hp q hq a
    rcases List.mem_append.1 hp with hp | hp
    · rw [(hbeside hp).2.2, (hbeside hp).2.2]
    · rcases List.mem_append.1 hq with hq | hq
      · rw [(hbeside hq).2.2, (hbeside hq).2.2]
      · exact hcommute p (hsome.subset hp) q (hsome.subset hq) a
  have hall' : ∀ f ∈ r.fields, f.presence = .required →
      f.name ∈ (others.map Written.beside ++ us).map Written.name := by
    intro f hf hrequired
    rw [List.map_append]
    exact List.mem_append_right _ (hall f hf hrequired)
  have h := restores_of_takes henter hnodup htakes hapart hall' hcommute'
  rw [hmembers, List.foldl_append, hput] at h
  refine h.iff ?_
  rw [List.forall_mem_append]
  exact and_iff_right fun p hp => (hbeside hp).2.1

/-- A record whose fields are restored is restored from the members that
they were written as, in any order and among others. -/
theorem restores (hm : m.Admits depth) {ws : List (Written α)}
    (hfields : List.Forall₂ (Field.Restores m.inner (depth - 1)) r.fields ws)
    (others : List (String × Value))
    (hnodup : (others.map (·.1) ++ r.fields.map (·.name)).Nodup)
    (hcommute : Commute ws) :
    Restores m depth r.reader (.object (others ++ ws.map Written.member))
      (∀ p ∈ ws, p.sound) (ws.foldl (fun a p => p.put a) r.start) := by
  obtain ⟨_, hfieldNames, hapart⟩ := List.nodup_append.1 hnodup
  refine restores_of_sublist hm.enter hfields (.refl ws) ?_ hfieldNames ?_
    hcommute
  · intro f hf _
    rw [names_of_fields hfields]
    exact List.mem_map_of_mem hf
  · intro q hq hmem
    exact hapart _ (List.mem_map_of_mem hq) _ hmem rfl

/-- A record beside a member that it has no field for. -/
theorem restores_beside (hm : m.Admits depth) {ws : List (Written α)}
    (hfields : List.Forall₂ (Field.Restores m.inner (depth - 1)) r.fields ws)
    (name : String) (v : Value)
    (hnodup : (name :: r.fields.map (·.name)).Nodup)
    (hcommute : Commute ws) :
    Restores m depth r.reader (.object ((name, v) :: ws.map Written.member))
      (∀ p ∈ ws, p.sound) (ws.foldl (fun a p => p.put a) r.start) :=
  restores hm hfields [(name, v)] hnodup hcommute

-- -------------------------------------------------- values and texts

/-- The record that a value holds; a value is never nested too deep. -/
def ofValue (r : Record α) (v : Value) : Except Error α :=
  r.reader ⟨v.levels, true⟩ v.outline

/-- What is restored from outlines is restored from the value itself. -/
theorem ofValue_yields {v w : Value} (hw : v.Reordered w) {p : Prop} {a : α}
    (h : Restores ⟨w.levels, true⟩ w.levels r.reader v p a) :
    Yields (r.ofValue w) p a :=
  h w.outline ⟨w, hw, w.value_outline⟩

/-- What is restored from outlines is restored from every text that can
be read. -/
theorem ofText_yields {v w : Value} (hw : v.Reordered w) {s : String}
    (hs : readText (Outline.value depth) s = .ok w) {p : Prop} {a : α}
    (h : Restores .start depth r.reader v p a) :
    Yields (r.ofText s) p a := by
  obtain ⟨hvalue, hmore⟩ := readText_eq_ok.1 hs
  have hyields := h _ ⟨w, hw, hvalue⟩
  constructor
  · intro hp
    exact readText_eq_ok.2 ⟨hyields.ok hp, hmore⟩
  · intro hp
    obtain ⟨e, he⟩ := hyields.error hp
    refine ⟨e, ?_⟩
    unfold ofText readText
    dsimp only
    rw [he]
    rfl

end Record

end TimedOverlay.Json
