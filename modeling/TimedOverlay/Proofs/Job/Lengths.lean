/-
The lengths of a component and what scaling makes of them.

A length follows an axis, the smaller of both factors or nothing at all
(`Direction`), and scaling multiplies each length by the factor of its
direction, whatever it belongs to (`Component.lengths_scale`). A number is
read only if it is finite and every default is finite, so all lengths are
finite before they are scaled (`Node.finite_component?`). What is scaled
is checked no more: the factor of a small canvas may be infinite
(`Document.isFinite_factor_iff`), and a length may be too large for its
factor. A job has finite lengths exactly if each product fits
(`Document.lengths_finite_iff`).
-/
import Mathlib
import TimedOverlay.Proofs.Binary64.Overflow
import TimedOverlay.Proofs.Job.Acceptance
import TimedOverlay.Proofs.Job.Components
import TimedOverlay.Proofs.Job.Factor

namespace TimedOverlay

open Json (Value)
open Magnitude (unitsPerOne limit)

-- ============================================================ directions

/-- What a length follows when its component is scaled. -/
inductive Direction where
  | across
  | down
  | stroke
  | fixed
deriving DecidableEq

/-- The factor of a direction. -/
def Direction.factor (sx sy : Binary64) : Direction → Binary64
  | .across => sx
  | .down => sy
  | .stroke => sx.min sy
  | .fixed => 1

/-- A length and what it follows. -/
structure Length where
  direction : Direction
  value : Binary64
deriving DecidableEq

namespace Length

/-- A length in pixels of the frame. -/
def scale (sx sy : Binary64) (l : Length) : Length :=
  { l with value := l.value * l.direction.factor sx sy }

/-- All lengths of a list are finite. -/
def AllFinite (ls : List Length) : Prop :=
  ∀ l ∈ ls, l.value.isFinite = true

instance (ls : List Length) : Decidable (AllFinite ls) :=
  inferInstanceAs (Decidable (∀ l ∈ ls, _ = _))

theorem allFinite_nil : AllFinite [] := List.forall_mem_nil _

theorem allFinite_cons {l : Length} {ls : List Length} :
    AllFinite (l :: ls) ↔ l.value.isFinite = true ∧ AllFinite ls :=
  List.forall_mem_cons

theorem allFinite_append {ls ms : List Length} :
    AllFinite (ls ++ ms) ↔ AllFinite ls ∧ AllFinite ms :=
  List.forall_mem_append

/-- Scaled lengths are finite exactly if each fits its factor. -/
theorem allFinite_scale {sx sy : Binary64} {ls : List Length} :
    AllFinite (ls.map (scale sx sy))
      ↔ ∀ l ∈ ls, l.value.productFits (l.direction.factor sx sy) = true := by
  unfold AllFinite
  rw [List.forall_mem_map]
  refine forall₂_congr fun l _ => ?_
  show (l.value * l.direction.factor sx sy).isFinite = true ↔ _
  rw [Binary64.isFinite_mul]

end Length

-- =============================================================== lengths

section

variable (sx sy : Binary64)

/-- The coordinates of a point. -/
def Point.lengths (p : Point) : List Length := [⟨.across, p.x⟩, ⟨.down, p.y⟩]

theorem Point.lengths_scale (p : Point) :
    (p.scale sx sy).lengths = p.lengths.map (Length.scale sx sy) := rfl

/-- The sides of a box. -/
def Size.lengths (s : Size) : List Length :=
  [⟨.across, s.width⟩, ⟨.down, s.height⟩]

theorem Size.lengths_scale (s : Size) :
    (s.scale sx sy).lengths = s.lengths.map (Length.scale sx sy) := rfl

/-- How far a shadow is moved and how wide it spreads. -/
def Shadow.lengths (s : Shadow) : List Length :=
  [⟨.across, s.offsetX⟩, ⟨.down, s.offsetY⟩, ⟨.fixed, s.blur⟩]

theorem Shadow.lengths_scale (s : Shadow) :
    (s.scale sx sy).lengths = s.lengths.map (Length.scale sx sy) := by
  have hblur : s.blur * 1 = s.blur := s.blur.mul_one
  show [_, _, (⟨.fixed, s.blur⟩ : Length)] = [_, _, ⟨.fixed, s.blur * 1⟩]
  rw [hblur]
  rfl

/-- The lengths of a shadow that may be absent. -/
def Shadow.lengths? (s : Option Shadow) : List Length :=
  (s.map Shadow.lengths).getD []

theorem Shadow.lengths?_scale (s : Option Shadow) :
    lengths? (s.map (Shadow.scale sx sy))
      = (lengths? s).map (Length.scale sx sy) := by
  cases s with
  | none => rfl
  | some s => exact s.lengths_scale sx sy

/-- The border and the shadow of a shape. -/
def ShapeStyle.lengths (s : ShapeStyle) : List Length :=
  ⟨.stroke, s.borderWidth⟩ :: Shadow.lengths? s.shadow

theorem ShapeStyle.lengths_scale (s : ShapeStyle) :
    (s.scale sx sy).lengths = s.lengths.map (Length.scale sx sy) := by
  show _ :: Shadow.lengths? (s.shadow.map (Shadow.scale sx sy)) = _
  rw [Shadow.lengths?_scale]
  rfl

/-- The lengths of a background that may be absent. -/
def ShapeStyle.lengths? (s : Option ShapeStyle) : List Length :=
  (s.map ShapeStyle.lengths).getD []

theorem ShapeStyle.lengths?_scale (s : Option ShapeStyle) :
    lengths? (s.map (ShapeStyle.scale sx sy))
      = (lengths? s).map (Length.scale sx sy) := by
  cases s with
  | none => rfl
  | some s => exact s.lengths_scale sx sy

/-- The height of the letters of a text, with the lengths of what is
behind them. -/
def TextStyle.lengths (s : TextStyle) : List Length :=
  ⟨.down, s.fontSize⟩
    :: (ShapeStyle.lengths? s.background ++ Shadow.lengths? s.shadow)

theorem TextStyle.lengths_scale (s : TextStyle) :
    (s.scale sx sy).lengths = s.lengths.map (Length.scale sx sy) := by
  show _ :: (ShapeStyle.lengths? (s.background.map (ShapeStyle.scale sx sy))
    ++ Shadow.lengths? (s.shadow.map (Shadow.scale sx sy))) = _
  rw [ShapeStyle.lengths?_scale, Shadow.lengths?_scale, ← List.map_append]
  rfl

/-- The ends and the width of a line. -/
def Segment.lengths (s : Segment) : List Length :=
  ⟨.stroke, s.style.width⟩ :: (s.start.lengths ++ s.stop.lengths)

theorem Segment.lengths_scale (s : Segment) :
    (s.scale sx sy).lengths = s.lengths.map (Length.scale sx sy) := rfl

/-- The lengths of a content; a picture has none of its own. -/
def Content.lengths : Content → List Length
  | .rectangle style => style.lengths
  | .circle style => style.lengths
  | .text block => block.style.lengths
  | .picture _ => []
  | .line segment => segment.lengths

theorem Content.lengths_scale (c : Content) :
    (c.scale sx sy).lengths = c.lengths.map (Length.scale sx sy) := by
  cases c with
  | rectangle style => exact style.lengths_scale sx sy
  | circle style => exact style.lengths_scale sx sy
  | text block => exact block.style.lengths_scale sx sy
  | picture p => rfl
  | line segment => exact segment.lengths_scale sx sy

/-- All lengths of a component: those of its box and of its content. -/
def Component.lengths (c : Component) : List Length :=
  c.position.lengths ++ c.size.lengths ++ c.content.lengths

/-- Scaling multiplies every length by the factor of its direction. -/
theorem Component.lengths_scale (c : Component) :
    (c.scale sx sy).lengths = c.lengths.map (Length.scale sx sy) := by
  show (c.position.scale sx sy).lengths ++ (c.size.scale sx sy).lengths
    ++ (c.content.scale sx sy).lengths = _
  rw [Point.lengths_scale, Size.lengths_scale, Content.lengths_scale,
    ← List.map_append, ← List.map_append]
  rfl

end

-- =============================================================== factors

/-- A frame fits its canvas along an axis: if there is a canvas of another
length, the quotient of both is short of the limit. -/
def Document.FrameFits (canvas : Option Binary64) (a : Nat) : Prop :=
  ∀ n : Magnitude, canvas = some (.finite false n) → 0 < n.units →
    tolerance.lt (Binary64.finite false n - .ofNat a).abs = true →
      a * unitsPerOne * unitsPerOne < limit * n.units

/-- The factor of an axis is finite exactly if the frame fits its
canvas. -/
theorem Document.isFinite_factor_iff (canvas : Option Binary64) {a : Nat}
    (ha : IsLength a) :
    (factor canvas a).isFinite = true ↔ FrameFits canvas a := by
  have hone : (1 : Binary64).isFinite = true := by
    rw [Binary64.one_eq]
    rfl
  by_cases hmeasured : Measured canvas
  · obtain ⟨n, hn, rfl⟩ := hmeasured
    rw [factor_of_size hn ha]
    split
    next hdiffers =>
      rw [Binary64.isFinite_ofUnits _ hn]
      constructor
      · intro hfits m hm _ _
        cases hm
        exact hfits
      · intro hfits
        exact hfits n rfl hn hdiffers
    next hsame =>
      constructor
      · intro _ m hm _ hdiffers
        cases hm
        exact absurd hdiffers hsame
      · intro _
        exact hone
  · constructor
    · intro _ n hn hpos _
      exact absurd ⟨n, hpos, hn⟩ hmeasured
    · intro _
      rcases factor_of_unmeasured hmeasured with hfactor | rfl
      · rw [hfactor]
        exact hone
      · rw [factor_of_infinite ha]
        rfl

-- ================================================================ placed

/-- Factors of one leave every length as it is. -/
theorem Length.scale_one (l : Length) : l.scale 1 1 = l := by
  have hfactor : l.direction.factor 1 1 = 1 := by
    cases l.direction with
    | across => rfl
    | down => rfl
    | stroke => decide +kernel
    | fixed => rfl
  unfold scale
  rw [hfactor, Binary64.mul_one]

/-- The lengths of a component in pixels of the frame. -/
theorem Document.lengths_place (d : Document) (c : Component) :
    (d.place c).lengths
      = c.lengths.map (Length.scale d.canvasScale.1 d.canvasScale.2) := by
  unfold place
  split
  next hone =>
    obtain ⟨hx, hy⟩ := Bool.and_eq_true_iff.1 hone
    have hscale : Length.scale 1 1 = id := funext Length.scale_one
    rw [Binary64.eq_one_of_same hx, Binary64.eq_one_of_same hy, hscale,
      List.map_id]
  next => exact c.lengths_scale ..

-- ================================================================= nodes

open Length (AllFinite allFinite_nil allFinite_cons allFinite_append)

theorem Loose.isFinite_getD_number? (field : Option Value) {x : Binary64}
    (hx : x.isFinite = true) :
    ((number? field).getD x).isFinite = true := by
  cases hnumber : number? field with
  | none => exact hx
  | some y => exact isFinite_of_number? hnumber

theorem LoosePoint.finite_orElse (field : Option Value) {p : Point}
    (hp : AllFinite p.lengths) :
    AllFinite ((ofField field).orElse p).lengths := by
  obtain ⟨hx, hp⟩ := allFinite_cons.1 hp
  obtain ⟨hy, -⟩ := allFinite_cons.1 hp
  apply allFinite_cons.2
  refine ⟨Loose.isFinite_getD_number? _ hx, ?_⟩
  apply allFinite_cons.2
  exact ⟨Loose.isFinite_getD_number? _ hy, allFinite_nil⟩

namespace StyleSheet

variable (field : Option Value)

theorem finite_shadow? {standard : Shadow}
    (h : AllFinite standard.lengths) :
    AllFinite (Shadow.lengths? ((ofField field).shadow? standard)) := by
  obtain ⟨hx, h⟩ := allFinite_cons.1 h
  obtain ⟨hy, h⟩ := allFinite_cons.1 h
  obtain ⟨hblur, -⟩ := allFinite_cons.1 h
  unfold shadow?
  split
  next =>
    apply allFinite_cons.2
    refine ⟨Loose.isFinite_getD_number? _ hx, ?_⟩
    apply allFinite_cons.2
    refine ⟨Loose.isFinite_getD_number? _ hy, ?_⟩
    apply allFinite_cons.2
    exact ⟨Loose.isFinite_getD_number? _ hblur, allFinite_nil⟩
  next => exact allFinite_nil

theorem finite_shape : AllFinite (ofField field).shape.lengths := by
  apply allFinite_cons.2
  refine ⟨Loose.isFinite_getD_number? _ (by decide +kernel), ?_⟩
  exact finite_shadow? field (by decide +kernel)

theorem finite_background? :
    AllFinite (ShapeStyle.lengths? (ofField field).background?) := by
  unfold background?
  split
  next =>
    split
    next =>
      apply allFinite_cons.2
      exact ⟨Loose.isFinite_getD_number? _ (by decide +kernel), allFinite_nil⟩
    next => exact allFinite_nil
  next => exact allFinite_nil

theorem finite_text : AllFinite (ofField field).text.lengths := by
  apply allFinite_cons.2
  refine ⟨Loose.isFinite_getD_number? _ (by decide +kernel), ?_⟩
  apply allFinite_append.2
  refine ⟨finite_background? field, ?_⟩
  exact finite_shadow? field (by decide +kernel)

end StyleSheet

namespace Node

variable (get : String → Option Value)

theorem finite_content (kind : Kind) :
    AllFinite ((ofFields get).content kind).lengths := by
  cases kind with
  | rectangle => exact StyleSheet.finite_shape _
  | circle => exact StyleSheet.finite_shape _
  | text => exact StyleSheet.finite_text _
  | picture => exact allFinite_nil
  | line =>
      apply allFinite_cons.2
      refine ⟨Loose.isFinite_getD_number? _ (by decide +kernel), ?_⟩
      apply allFinite_append.2
      exact ⟨LoosePoint.finite_orElse _ (by decide +kernel),
        LoosePoint.finite_orElse _ (by decide +kernel)⟩

/-- What is read has finite lengths. -/
theorem finite_component? {c : Component}
    (h : (ofFields get).component? = some c) : AllFinite c.lengths := by
  obtain ⟨kind, -, rfl⟩ := Option.map_eq_some_iff.1 h
  have hzero : (0 : Binary64).isFinite = true := by decide +kernel
  apply allFinite_append.2
  refine ⟨?_, finite_content get kind⟩
  apply allFinite_append.2
  constructor
  · exact LoosePoint.finite_orElse _ (by decide +kernel)
  · apply allFinite_cons.2
    refine ⟨Loose.isFinite_getD_number? _ hzero, ?_⟩
    apply allFinite_cons.2
    exact ⟨Loose.isFinite_getD_number? _ hzero, allFinite_nil⟩

end Node

-- ============================================================= documents

namespace Document

/-- The lengths of a job are finite before they are scaled. Those of its
components, which are in pixels of the frame, are finite exactly if each
length of a node fits the factor of its direction: both are finite, and
their exact product is less than the largest double and half a step. And
the factor of an axis is finite exactly if the frame fits its canvas. -/
theorem lengths_finite_iff {s : String} {d : Document}
    (h : ofText s = .ok d) :
    (∀ n ∈ d.nodes, ∀ b, n.component? = some b → AllFinite b.lengths)
      ∧ ((∀ c ∈ d.components, AllFinite c.lengths)
        ↔ ∀ n ∈ d.nodes, ∀ b, n.component? = some b → ∀ l ∈ b.lengths,
          l.value.productFits
            (l.direction.factor d.canvasScale.1 d.canvasScale.2) = true)
      ∧ (d.canvasScale.1.isFinite = true
        ↔ FrameFits d.canvasWidth d.frame.width)
      ∧ (d.canvasScale.2.isFinite = true
        ↔ FrameFits d.canvasHeight d.frame.height) := by
  refine ⟨?_, ?_, isFinite_factor_iff d.canvasWidth d.frame_valid.1,
    isFinite_factor_iff d.canvasHeight d.frame_valid.2⟩
  · intro n hn b hb
    obtain ⟨get, rfl⟩ := fields_of_mem_nodes h hn
    exact Node.finite_component? get hb
  · have hplace (b : Component) : AllFinite (d.place b).lengths
        ↔ ∀ l ∈ b.lengths, l.value.productFits
          (l.direction.factor d.canvasScale.1 d.canvasScale.2) = true := by
      rw [d.lengths_place]
      exact Length.allFinite_scale
    constructor
    · intro hall n hn b hb
      apply (hplace b).1
      exact hall _ (d.mem_components.2 ⟨n, hn, b, hb, rfl⟩)
    · intro hfits c hc
      obtain ⟨n, hn, b, hb, rfl⟩ := d.mem_components.1 hc
      exact (hplace b).2 (hfits n hn b hb)

/-- On a canvas of half the width of its frame a line is stretched along
it, and neither its ends nor its width get lost. -/
theorem lengths_finite_stretched :
    ∃ d,
      ofText
          ("\x7b\"canvas_width\":960,\"nodes\":[\x7b\"type\":\"line\","
            ++ "\"data\":\x7b\"startPoint\":[1,2],"
            ++ "\"endPoint\":[3,4]\x7d\x7d]\x7d")
        = .ok d
      ∧ d.canvasScale = (2, 1)
      ∧ d.components.map (·.content.lengths.map Length.value)
        = [[2, 2, 2, 6, 4]]
      ∧ ∀ c ∈ d.components, AllFinite c.lengths := by
  have hread : Json.read
      ("\x7b\"canvas_width\":960,\"nodes\":[\x7b\"type\":\"line\","
        ++ "\"data\":\x7b\"startPoint\":[1,2],"
        ++ "\"endPoint\":[3,4]\x7d\x7d]\x7d")
      = .ok (.object [("canvas_width", .ofNat 960),
          ("nodes", .array [.object [("type", .string "line"),
            ("data", .object [
              ("startPoint", .array [.ofNat 1, .ofNat 2]),
              ("endPoint", .array [.ofNat 3, .ofNat 4])])]])]) := by
    cbv
  have hd := ofText_of_read hread
  refine ⟨_, hd, by decide +kernel, by decide +kernel, ?_⟩
  apply (lengths_finite_iff hd).2.1.2
  show ∀ n ∈ nodes _, ∀ b ∈ Node.component? n, ∀ l ∈ Component.lengths b,
    _ = true
  decide +kernel

/-- On a canvas that is too narrow the frame is beyond every factor:
what is half across it ends nowhere, and what has no width has no number
for one. -/
theorem lengths_not_finite :
    ∃ d,
      ofText
          ("\x7b\"canvas_width\":\"1e-306\",\"nodes\":[\x7b\"type\":"
            ++ "\"picture\",\"position\":[\"5e-307\",0]\x7d]\x7d")
        = .ok d
      ∧ d.canvasScale = (.infinite false, 1)
      ∧ d.components.map (·.position) = [⟨.infinite false, 0⟩]
      ∧ d.components.map (·.size) = [⟨.nan, 0⟩]
      ∧ ¬ ∀ c ∈ d.components, AllFinite c.lengths := by
  have hread : Json.read
      ("\x7b\"canvas_width\":\"1e-306\",\"nodes\":[\x7b\"type\":"
        ++ "\"picture\",\"position\":[\"5e-307\",0]\x7d]\x7d")
      = .ok (.object [("canvas_width", .string "1e-306"),
          ("nodes", .array [.object [("type", .string "picture"),
            ("position", .array [.string "5e-307",
              .ofNat 0])]])]) := by
    cbv
  refine ⟨_, ofText_of_read hread, ?_, ?_, ?_, ?_⟩
  · decide +kernel
  · decide +kernel
  · decide +kernel
  · decide +kernel

end Document

end TimedOverlay
