/-
Components that are written and read back.

Each kind of part is restored from its value, from the numbers upwards; a
record is restored because its fields are. What carries the content is
that its name is a member like the others to who looks for the kind
(`Content.findKind_of_holds`) and an unknown one to who reads the rest.

JSON has no form for a number that is not finite, and null is not taken
for one. So a component comes back exactly if all of its numbers are
finite, and otherwise nothing does (`Component.round_trip`).
-/
import TimedOverlay.Component.Record
import TimedOverlay.Proofs.Json.Restoring

namespace TimedOverlay

open Json (Value Mode Restores Field Record Strict.real Outline Spelling
  Reader Yields)

-- =============================================================== numbers

namespace Binary64

/-- All numbers of a list are finite. -/
def AllFinite (xs : List Binary64) : Prop := ∀ x ∈ xs, x.isFinite = true

instance (xs : List Binary64) : Decidable (AllFinite xs) :=
  inferInstanceAs (Decidable (∀ x ∈ xs, _ = _))

variable {x : Binary64} {xs ys : List Binary64}

@[simp]
theorem allFinite_nil : AllFinite [] := List.forall_mem_nil _

@[simp]
theorem allFinite_cons :
    AllFinite (x :: xs) ↔ x.isFinite = true ∧ AllFinite xs :=
  List.forall_mem_cons

@[simp]
theorem allFinite_append :
    AllFinite (xs ++ ys) ↔ AllFinite xs ∧ AllFinite ys :=
  List.forall_mem_append

end Binary64

open Binary64 (AllFinite)

/-- The coordinates of a point. -/
def Point.numbers (p : Point) : List Binary64 := [p.x, p.y]

/-- The sides of a box. -/
def Size.numbers (s : Size) : List Binary64 := [s.width, s.height]

/-- Every number of a shadow. -/
def Shadow.numbers (s : Shadow) : List Binary64 :=
  [s.offsetX, s.offsetY, s.blur, s.opacity]

/-- The numbers of a part that may be missing. -/
def numbers? {α : Type} (numbers : α → List Binary64) :
    Option α → List Binary64
  | none => []
  | some a => numbers a

/-- Every number of a shape, its shadow included. -/
def ShapeStyle.numbers (s : ShapeStyle) : List Binary64 :=
  [s.borderWidth, s.opacity] ++ numbers? Shadow.numbers s.shadow

/-- Every number of the style of a text. -/
def TextStyle.numbers (s : TextStyle) : List Binary64 :=
  [s.fontSize] ++ numbers? ShapeStyle.numbers s.background
    ++ numbers? Shadow.numbers s.shadow

/-- Every number of a line. -/
def Segment.numbers (s : Segment) : List Binary64 :=
  s.start.numbers ++ s.stop.numbers ++ [s.style.width]

/-- Every number of a content. -/
def Content.numbers : Content → List Binary64
  | .rectangle style => style.numbers
  | .circle style => style.numbers
  | .text block => block.style.numbers
  | .picture _ => []
  | .line segment => segment.numbers

/-- Every number of a component. -/
def Component.numbers (c : Component) : List Binary64 :=
  c.position.numbers ++ c.size.numbers ++ c.timestamps ++ c.content.numbers

-- ================================================================= parts

section

variable {m : Mode} {depth : Nat}

/-- A number that is not finite is written as null, which is no number. -/
theorem Binary64.restores (x : Binary64) :
    Restores m depth Strict.real x.toValue (x.isFinite = true) x := by
  intro o ho
  unfold toValue at ho
  split at ho
  next hfinite =>
    obtain rfl := ho.number
    exact (Yields.of_ok rfl).iff (iff_of_true trivial hfinite)
  next hfinite =>
    obtain rfl := ho.null
    exact ⟨fun h => (hfinite h).elim, fun _ => ⟨_, rfl⟩⟩

theorem Binary64.restores_list (hm : m.Admits depth) (xs : List Binary64) :
    Restores m depth (Json.Strict.list Strict.real)
      (.array (xs.map toValue)) (AllFinite xs) xs :=
  .list hm restores xs

/-- An optional part is restored if the part is, none of which is written
as null. -/
theorem restores_optional {α : Type} {read : Reader α} {write : α → Value}
    {numbers : α → List Binary64}
    (hread : ∀ a, Restores m depth read (write a) (AllFinite (numbers a)) a)
    (hnull : ∀ a, write a ≠ .null) (a : Option α) :
    Restores m depth (Json.Strict.optional read) (.ofOption write a)
      (AllFinite (numbers? numbers a)) a := by
  refine (Restores.optional hread hnull a).iff ?_
  cases a with
  | none => simp [numbers?]
  | some a => simp [numbers?]

theorem Point.restores (hm : m.Admits depth) (p : Point) :
    Restores m depth Point.record.reader p.toValue (AllFinite p.numbers)
      p := by
  have hfields : List.Forall₂ (Field.Restores m.inner (depth - 1))
      Point.record.fields _ :=
    .cons (.of p.x.restores _ _ _) (.cons (.of p.y.restores _ _ _) .nil)
  have h := Record.restores hm hfields [] (by decide)
    (by simp [Record.Commute])
  exact h.iff (by simp [numbers])

theorem Size.restores (hm : m.Admits depth) (s : Size) :
    Restores m depth Size.record.reader s.toValue (AllFinite s.numbers)
      s := by
  have hfields : List.Forall₂ (Field.Restores m.inner (depth - 1))
      Size.record.fields _ :=
    .cons (.of s.width.restores _ _ _)
      (.cons (.of s.height.restores _ _ _) .nil)
  have h := Record.restores hm hfields [] (by decide)
    (by simp [Record.Commute])
  exact h.iff (by simp [numbers])

theorem channel_restores (n : UInt8) :
    Restores m depth channelReader (.ofNat n.toNat) True n := by
  have h : Restores m depth channelReader (.ofNat n.toNat) True
      (UInt8.ofNat n.toNat) :=
    (Restores.natural n.toNat_lt).map UInt8.ofNat
  rwa [UInt8.ofNat_toNat] at h

theorem Color.restores (hm : m.Admits depth) (c : Color) :
    Restores m depth Color.record.reader c.toValue True c := by
  have hfields : List.Forall₂ (Field.Restores m.inner (depth - 1))
      Color.record.fields _ :=
    .cons (.of (channel_restores c.red) _ _ _)
      (.cons (.of (channel_restores c.green) _ _ _)
        (.cons (.of (channel_restores c.blue) _ _ _) .nil))
  have h := Record.restores hm hfields [] (by decide)
    (by simp [Record.Commute])
  exact h.iff (by simp)

theorem variantName_of_text {names : List String} {expected name : String}
    {s : Spelling} (hs : s.text = .ok name) (hname : name ∈ names) :
    variantName names expected m (.string s) = .ok name := by
  unfold variantName Json.Strict.text
  dsimp only
  rw [hs]
  simp [bind, Except.bind, pure, Except.pure, hname]

theorem Paint.restores (hm : m.Admits depth) (p : Paint) :
    Restores m depth Paint.reader p.toValue True p := by
  intro o ho
  cases p with
  | transparent =>
      obtain ⟨s, rfl, hs⟩ := ho.string
      refine .of_ok ?_
      unfold reader
      dsimp only
      rw [variantName_of_text hs (by decide)]
      rfl
  | solid c =>
      -- The color is the only member of an object around it.
      obtain ⟨_, ms, os, hperm, rfl, hos⟩ := ho.object
      obtain rfl := List.perm_singleton.1 hperm.symm
      cases hos with
      | @cons _ q _ _ hq hos =>
          cases hos
          obtain ⟨key, o⟩ := q
          have hread := (c.restores (hm.mono (Nat.sub_le depth 1)) o hq.2).map
            Paint.solid
          unfold reader
          dsimp only
          rw [variantName_of_text hq.1 List.mem_cons_self]
          exact hread

theorem Alignment.restores (a : Alignment) :
    Restores m depth Alignment.reader a.toValue True a := by
  intro o ho
  obtain ⟨s, rfl, hs⟩ := ho.string
  have hname : a.name ∈ ["left", "center", "right"] := by
    cases a <;> decide
  have hparse : parse a.name = a := by
    cases a <;> decide
  refine .of_ok ?_
  unfold reader
  dsimp only
  rw [variantName_of_text hs hname]
  exact congrArg Except.ok hparse

-- ================================================================ styles

theorem Shadow.restores (hm : m.Admits depth) (s : Shadow) :
    Restores m depth Shadow.record.reader s.toValue (AllFinite s.numbers)
      s := by
  have hfields : List.Forall₂ (Field.Restores m.inner (depth - 1))
      Shadow.record.fields _ :=
    .cons (.of (s.color.restores hm.inner) _ _ _)
      (.cons (.of s.offsetX.restores _ _ _)
        (.cons (.of s.offsetY.restores _ _ _)
          (.cons (.of s.blur.restores _ _ _)
            (.cons (.of s.opacity.restores _ _ _) .nil))))
  have h := Record.restores hm hfields [] (by decide)
    (by simp [Record.Commute])
  exact h.iff (by simp [numbers])

theorem Shadow.restores_optional (hm : m.Admits depth) (s : Option Shadow) :
    Restores m depth Shadow.optional (.ofOption toValue s)
      (AllFinite (numbers? numbers s)) s :=
  TimedOverlay.restores_optional (restores hm) (fun _ h => nomatch h) s

/-- A shape among other members of an object. -/
theorem ShapeStyle.restores_among (hm : m.Admits depth) (s : ShapeStyle)
    (others : List (String × Value))
    (hothers : (others.map (·.1)
      ++ ShapeStyle.record.fields.map (·.name)).Nodup) :
    Restores m depth ShapeStyle.record.reader (.object (others ++ s.members))
      (AllFinite s.numbers) s := by
  have hfields : List.Forall₂ (Field.Restores m.inner (depth - 1))
      ShapeStyle.record.fields _ :=
    .cons (.of (s.fill.restores hm.inner) _ _ _)
      (.cons (.of (s.borderColor.restores hm.inner) _ _ _)
        (.cons (.of s.borderWidth.restores _ _ _)
          (.cons (.of s.opacity.restores _ _ _)
            (.cons (.of (Shadow.restores_optional hm.inner s.shadow) _ _ _)
              .nil))))
  have h := Record.restores hm hfields others hothers
    (by simp [Record.Commute])
  exact h.iff (by simp [numbers])

theorem ShapeStyle.restores (hm : m.Admits depth) (s : ShapeStyle) :
    Restores m depth ShapeStyle.record.reader s.toValue
      (AllFinite s.numbers) s :=
  s.restores_among hm [] (by decide)

theorem TextStyle.restores (hm : m.Admits depth) (s : TextStyle) :
    Restores m depth TextStyle.record.reader s.toValue
      (AllFinite s.numbers) s := by
  have hbackground := restores_optional
    (ShapeStyle.restores hm.inner) (fun _ h => nomatch h) s.background
  have hfields : List.Forall₂ (Field.Restores m.inner (depth - 1))
      TextStyle.record.fields _ :=
    .cons (.of s.fontSize.restores _ _ _)
      (.cons (.of (s.fontColor.restores hm.inner) _ _ _)
        (.cons (.of s.alignment.restores _ _ _)
          (.cons (.of hbackground _ _ _)
            (.cons (.of (Shadow.restores_optional hm.inner s.shadow) _ _ _)
              .nil))))
  have h := Record.restores hm hfields [] (by decide)
    (by simp [Record.Commute])
  exact h.iff (by simp [numbers])

theorem LineStyle.restores (hm : m.Admits depth) (s : LineStyle) :
    Restores m depth LineStyle.record.reader s.toValue
      (s.width.isFinite = true) s := by
  have hfields : List.Forall₂ (Field.Restores m.inner (depth - 1))
      LineStyle.record.fields _ :=
    .cons (.of (s.color.restores hm.inner) _ _ _)
      (.cons (.of s.width.restores _ _ _) .nil)
  have h := Record.restores hm hfields [] (by decide)
    (by simp [Record.Commute])
  exact h.iff (by simp)

-- ============================================================== contents

-- The name of the kind is a member that none of these records has a field
-- for.

variable {tag : Value}

theorem ShapeStyle.restores_tagged (hm : m.Admits depth) (s : ShapeStyle) :
    Restores m depth ShapeStyle.record.reader
      (.object (("variant", tag) :: s.members)) (AllFinite s.numbers) s :=
  s.restores_among hm [_] (by
    show ("variant" :: ShapeStyle.record.fields.map (·.name)).Nodup
    decide)

theorem TextBlock.restores_tagged (hm : m.Admits depth) (b : TextBlock) :
    Restores m depth TextBlock.record.reader
      (.object [("variant", tag), ("text", .string b.text),
        ("style", b.style.toValue)])
      (AllFinite b.style.numbers) b := by
  have hfields : List.Forall₂ (Field.Restores m.inner (depth - 1))
      TextBlock.record.fields _ :=
    .cons (.of (.text _ b.text) _ _ _)
      (.cons (.of (b.style.restores hm.inner) _ _ _) .nil)
  have h := Record.restores_beside hm hfields "variant" tag (by decide)
    (by simp [Record.Commute])
  exact h.iff (by simp)

theorem Picture.restores_tagged (hm : m.Admits depth) (p : Picture) :
    Restores m depth Picture.record.reader
      (.object [("variant", tag), ("image", .ofOption .string p.image)])
      True p := by
  have himage : Restores m.inner (depth - 1)
      (Json.Strict.optional Json.Strict.string) (.ofOption .string p.image)
      (∀ s ∈ p.image, True) p.image :=
    .optional (fun s => .text _ s) (fun _ h => nomatch h) p.image
  have hfields : List.Forall₂ (Field.Restores m.inner (depth - 1))
      Picture.record.fields _ :=
    .cons (.of himage _ _ _) .nil
  have h := Record.restores_beside hm hfields "variant" tag (by decide)
    (by simp [Record.Commute])
  exact h.iff (by simp)

theorem Segment.restores_tagged (hm : m.Admits depth) (s : Segment) :
    Restores m depth Segment.record.reader
      (.object [("variant", tag), ("start", s.start.toValue),
        ("end", s.stop.toValue), ("style", s.style.toValue)])
      (AllFinite s.numbers) s := by
  have hfields : List.Forall₂ (Field.Restores m.inner (depth - 1))
      Segment.record.fields _ :=
    .cons (.of (s.start.restores hm.inner) _ _ _)
      (.cons (.of (s.stop.restores hm.inner) _ _ _)
        (.cons (.of (s.style.restores hm.inner) _ _ _) .nil))
  have h := Record.restores_beside hm hfields "variant" tag (by decide)
    (by simp [Record.Commute])
  exact h.iff (by simp [numbers])

namespace Content

/-- What a content carries is restored from the record that names its
kind, too. -/
theorem payload_restores (c : Content) :
    Restores ⟨0, true⟩ depth (payload c.kind) c.toValue
      (AllFinite c.numbers) c := by
  have hm : Mode.Admits ⟨0, true⟩ depth := .inl rfl
  intro o ho
  cases c with
  | rectangle style =>
      exact (style.restores_tagged hm o ho).map Content.rectangle
  | circle style =>
      exact (style.restores_tagged hm o ho).map Content.circle
  | text block =>
      exact (block.restores_tagged hm o ho).map Content.text
  | picture p =>
      exact ((p.restores_tagged hm o ho).map Content.picture).iff
        (by simp [numbers])
  | line segment =>
      exact (segment.restores_tagged hm o ho).map Content.line

/-- The name of a kind is told by a member of its own. -/
theorem kindReader_of_holds {k : Kind} {o : Outline}
    (ho : o.Holds depth (.string k.name)) : kindReader m o = .ok k := by
  obtain ⟨s, rfl, hs⟩ := ho.string
  unfold kindReader Json.Strict.text
  dsimp only
  rw [hs]
  simp only [bind, Except.bind]
  rw [Kind.ofName?_name]
  rfl

/-- The kind is found wherever its name stands among the members. -/
theorem findKind_of_holds {k : Kind} (hdepth : depth ≤ m.depth)
    {ms : List (String × Value)} {os : List (Spelling × Outline)}
    (hos : List.Forall₂ (Outline.HoldsMember depth) ms os)
    (hnodup : (ms.map (·.1)).Nodup) {found : Option Kind}
    (hfound : found = some k ∧ "variant" ∉ ms.map (·.1)
      ∨ found = none ∧ ("variant", .string k.name) ∈ ms) :
    findKind m none found os = .ok k := by
  induction hos generalizing found with
  | nil =>
      rcases hfound with ⟨rfl, _⟩ | ⟨_, hfalse⟩
      · rfl
      · cases hfalse
  | @cons p q ms os hq _ ih =>
      obtain ⟨key, o⟩ := q
      obtain ⟨hname, ho⟩ := hq
      obtain ⟨hfirst, hrest⟩ := List.nodup_cons.1 hnodup
      rw [findKind, hname]
      simp only [bind, Except.bind]
      by_cases hp : p.1 = "variant"
      · -- This is the only member of that name, so it is what was named.
        rcases hfound with ⟨_, hnone⟩ | ⟨rfl, hmem⟩
        · exact (hnone (hp ▸ List.mem_cons_self)).elim
        · obtain heq | hmem := List.mem_cons.1 hmem
          · subst heq
            rw [if_pos rfl, kindReader_of_holds ho]
            exact ih hrest (.inl ⟨rfl, hfirst⟩)
          · exact (hfirst (List.mem_map.2 ⟨_, hmem, hp.symm⟩)).elim
      · obtain ⟨w, hw⟩ := ho.exists_value hdepth
        rw [if_neg hp, hw]
        refine ih hrest (hfound.imp ?_ ?_)
        · rintro ⟨hsome, hnone⟩
          exact ⟨hsome, fun h => hnone (List.mem_cons_of_mem _ h)⟩
        · rintro ⟨hnone, hmem⟩
          refine ⟨hnone, (List.mem_cons.1 hmem).resolve_left ?_⟩
          rintro rfl
          exact hp rfl

theorem restores (hm : depth ≤ m.depth) (c : Content) :
    Restores m depth Content.reader c.toValue (AllFinite c.numbers) c := by
  intro o ho
  obtain ⟨hpos, ms, os, hperm, rfl, hos⟩ := ho.object
  have hnodup : ((("variant", Value.string c.kind.name) :: c.members).map
      (·.1)).Nodup := by
    cases c <;> simp [members, ShapeStyle.members]
  have hfind : findKind m.inner none none os = .ok c.kind :=
    findKind_of_holds (Mode.le_depth_inner hm) hos
      ((hperm.map _).nodup_iff.1 hnodup)
      (.inr ⟨rfl, hperm.mem_iff.1 List.mem_cons_self⟩)
  unfold reader
  dsimp only
  rw [Mode.Admits.enter (.inr hm) hpos]
  show Yields (findKind m.inner none none os >>= _) _ _
  rw [hfind]
  exact c.payload_restores _ ho

end Content

-- ============================================================ components

theorem Component.restores (hm : depth ≤ m.depth) (c : Component) :
    Restores m depth Component.record.reader c.toValue
      (AllFinite c.numbers) c := by
  have hadmits : m.inner.Admits (depth - 1) := .inr (Mode.le_depth_inner hm)
  have hfields : List.Forall₂ (Field.Restores m.inner (depth - 1))
      Component.record.fields _ :=
    .cons (.of (.text _ c.id) _ _ _)
      (.cons (.of (c.position.restores hadmits) _ _ _)
        (.cons (.of (c.size.restores hadmits) _ _ _)
          (.cons (.of (.boolean c.visible) _ _ _)
            (.cons (.of (Binary64.restores_list hadmits c.timestamps) _ _ _)
              (.cons (.of (c.content.restores (Mode.le_depth_inner hm)) _ _ _)
                .nil)))))
  have h := Record.restores (.inr hm) hfields [] (by decide)
    (by simp [Record.Commute])
  exact h.iff (by simp [numbers])

end

namespace Component

-- ============================================================ round trip

/-- A component is read back from its value exactly if all of its numbers
are finite, from the value itself and from every text that tells it, the
members of each object in any order. Otherwise the reader fails: what
comes back is this component or none. -/
theorem round_trip (c : Component) {w : Value} (hw : c.toValue.Reordered w) :
    ((record.ofValue w = .ok c ↔ AllFinite c.numbers)
        ∧ (¬ AllFinite c.numbers → ∃ e, record.ofValue w = .error e))
      ∧ ∀ s, Json.read s = .ok w →
        (record.ofText s = .ok c ↔ AllFinite c.numbers)
          ∧ (¬ AllFinite c.numbers → ∃ e, record.ofText s = .error e) := by
  have hvalue := Record.ofValue_yields hw (c.restores (Nat.le_refl _))
  refine ⟨⟨hvalue.ok_iff, hvalue.error⟩, fun s hs => ?_⟩
  have htext := Record.ofText_yields hw hs (c.restores (Nat.le_refl _))
  exact ⟨htext.ok_iff, htext.error⟩

/-- A text on a box without color, both with shadows, and with numbers at
the ends of their range. -/
def subtitle : Component where
  id := "\"1\""
  position := ⟨.finite true .zero, .ofBits 0x7fefffffffffffff⟩
  size := ⟨.ofBits 1, 0⟩
  visible := false
  timestamps := [2, 1, 2]
  content := .text ⟨"%\u0007", {
    fontSize := 1, fontColor := .black, alignment := .center
    background := some ⟨.transparent, .white, 0, half, some .standard⟩
    shadow := some .ofText }⟩

/-- The subtitle with one of its times missing. -/
def untimed : Component := { subtitle with timestamps := [1, .nan] }

/-- A component with its members written from the last to the first, those
of its content, too. -/
def backwards (c : Component) : Value :=
  .object [
    ("kind", .object (c.content.members.reverse
      ++ [("variant", .string c.content.kind.name)])),
    ("timestamps", .array (c.timestamps.map Binary64.toValue)),
    ("visible", .bool c.visible), ("size", c.size.toValue),
    ("position", c.position.toValue), ("id", .string c.id)]

theorem reordered_backwards (c : Component) :
    c.toValue.Reordered c.backwards := by
  have hkind : c.content.toValue.Reordered
      (.object (c.content.members.reverse
        ++ [("variant", .string c.content.kind.name)])) := by
    refine .object (List.reverse_perm _).symm ?_ ?_
    · rw [List.reverse_cons]
    · rw [List.reverse_cons]
      exact List.forall₂_same.2 fun v _ => .same v
  exact .object (List.reverse_perm _).symm rfl
    (.cons hkind (List.forall₂_same.2 fun v _ => .same v))

theorem round_trip_subtitle :
    record.ofValue subtitle.backwards = .ok subtitle
      ∧ ∃ e, record.ofValue untimed.backwards = .error e :=
  ⟨(round_trip subtitle subtitle.reordered_backwards).1.1.2 (by decide +kernel),
    (round_trip untimed untimed.reordered_backwards).1.2 (by decide +kernel)⟩

end Component

end TimedOverlay
