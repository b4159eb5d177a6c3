/-
The frame that a job reports and the frame that it is scaled to.

A job takes its frame from the document or, where that does not give it
in full, from the video; its components are scaled by the document alone.
The two agree for every document that gives its frame and wherever the
video is not known. Where a video is known and the document lacks its
frame, they agree exactly if along both axes the canvas makes no
difference between the length that the document stands for and that of
the video (`Job.components_agree_iff`).
-/
import Mathlib
import TimedOverlay.Proofs.Job.Acceptance
import TimedOverlay.Proofs.Job.Factor

namespace TimedOverlay

-- =============================================================== placing

namespace Document

/-- The components of nodes, scaled. -/
def placed (scale : Binary64 × Binary64) (nodes : List Node) :
    List Component :=
  (nodes.filterMap Node.component?).map fun c =>
    if scale.1.same 1 && scale.2.same 1 then c
    else c.scale scale.1 scale.2

theorem components_eq (d : Document) :
    d.components = placed d.canvasScale d.nodes := rfl

/-- A picture one pixel right of the origin and one below it. -/
def marker : Node where
  id := ""
  kind := some .picture
  position := ⟨some 1, some 1⟩
  width := none
  height := none
  data := .ofField none

/-- Where the marker is placed tells the factors of both axes. -/
theorem placed_marker (scale : Binary64 × Binary64) :
    (placed scale [marker]).map (·.position) = [⟨scale.1, scale.2⟩] := by
  obtain ⟨sx, sy⟩ := scale
  obtain ⟨c, hc, hposition⟩ : ∃ c, marker.component? = some c
      ∧ c.position = ⟨1, 1⟩ := ⟨_, rfl, rfl⟩
  unfold placed
  rw [List.filterMap_cons, hc]
  simp only [List.filterMap_nil, List.map_cons, List.map_nil]
  split
  -- Where nothing is scaled, both factors are one, and so is the position.
  next hone =>
    obtain ⟨hx, hy⟩ := Bool.and_eq_true_iff.1 hone
    rw [hposition, Binary64.eq_one_of_same hx, Binary64.eq_one_of_same hy]
  next =>
    show [c.position.scale sx sy] = _
    rw [hposition, Point.scale, Binary64.one_mul, Binary64.one_mul]

/-- Nodes are placed alike by the same factors only. -/
theorem placed_congr_iff {s t : Binary64 × Binary64} :
    (∀ nodes, placed s nodes = placed t nodes) ↔ s = t := by
  constructor
  · intro h
    have hplace := congrArg (List.map (·.position)) (h [marker])
    rw [placed_marker, placed_marker] at hplace
    simp only [List.cons.injEq, Point.mk.injEq, and_true] at hplace
    exact Prod.ext hplace.1 hplace.2
  · rintro rfl nodes
    rfl

-- ================================================================= axes

/-- Along an axis a canvas makes no difference between two lengths: they
are the same, or no length of the canvas is known, or it is so small that
both factors are infinite. -/
def Alike (canvas : Option Binary64) (a b : Nat) : Prop :=
  a = b ∨ ¬ Measured canvas
    ∨ (factor canvas a = .infinite false ∧ factor canvas b = .infinite false)

/-- A document is scaled to its own frame and to another alike exactly
if its canvas makes no difference between their lengths. -/
theorem canvasScale_withFrame_iff (d : Document) {f : Frame}
    (hf : f.Valid) :
    d.canvasScale = (d.withFrame f).canvasScale
      ↔ Alike d.canvasWidth d.frame.width f.width
        ∧ Alike d.canvasHeight d.frame.height f.height := by
  have hd := d.frame_valid
  have hscale : (d.withFrame f).canvasScale
      = (factor d.canvasWidth f.width, factor d.canvasHeight f.height) := by
    unfold canvasScale
    rw [frame_withFrame d hf]
    rfl
  rw [hscale, canvasScale, Prod.mk.injEq, factor_eq_iff hd.1 hf.1,
    factor_eq_iff hd.2 hf.2]
  rfl

end Document

-- ================================================================== jobs

namespace Job

/-- The components of a job are those of its document with the frame that
the job reports, whatever its nodes, exactly if both frames ask for the
same factors. -/
theorem components_eq_iff (id : String) (d : Document)
    (known : Option Media) :
    (∀ nodes,
      (ofDocument id { d with nodes } known).components
        = (Document.withFrame { d with nodes }
            (ofDocument id { d with nodes } known).frame).components)
      ↔ d.canvasScale
        = (d.withFrame (ofDocument id d known).frame).canvasScale :=
  Document.placed_congr_iff (s := d.canvasScale)
    (t := (d.withFrame (ofDocument id d known).frame).canvasScale)

/-- The components of a job are those of its document with the frame that
the job reports, whatever its nodes, exactly if the video is not known,
or the document gives its frame, or the canvas makes no difference
between the frame of the document and that of the video. -/
theorem components_agree_iff (id : String) (d : Document)
    (answer : Option String) :
    (∀ nodes,
      (ofDocument id { d with nodes } (answer.bind Media.ofText?)).components
        = (Document.withFrame { d with nodes }
            (ofDocument id { d with nodes }
              (answer.bind Media.ofText?)).frame).components)
      ↔ ∀ m, answer.bind Media.ofText? = some m →
          d.hasFrame = true
            ∨ (Document.Alike d.canvasWidth d.frame.width m.frame.width
              ∧ Document.Alike d.canvasHeight d.frame.height
                m.frame.height) := by
  have hf := frame_valid id d answer
  rw [components_eq_iff, d.canvasScale_withFrame_iff hf]
  cases hknown : answer.bind Media.ofText? with
  | none =>
      have hsame : (ofDocument id d none).frame = d.frame := rfl
      rw [hsame]
      constructor
      · intro _ m hm
        cases hm
      · intro _
        exact ⟨.inl rfl, .inl rfl⟩
  | some m =>
      simp only [Option.some.injEq, forall_eq']
      cases hframe : d.hasFrame with
      | true =>
          have hsame : (ofDocument id d (some m)).frame = d.frame :=
            if_pos hframe
          rw [hsame]
          exact ⟨fun _ => .inl rfl, fun _ => ⟨.inl rfl, .inl rfl⟩⟩
      | false =>
          have hother : (ofDocument id d (some m)).frame = m.frame :=
            if_neg (by simp [hframe])
          rw [hother]
          simp only [Bool.false_eq_true, false_or]

/-- A job with a canvas and no frame of its own is scaled to the standard
frame although the video that was asked is smaller. -/
theorem components_disagree :
    ∃ d,
      Document.ofText
          ("\x7b\"canvas_width\":640,\"canvas_height\":360,\"nodes\":["
            ++ "\x7b\"type\":\"picture\",\"position\":[100,50]\x7d]\x7d")
        = .ok d
      ∧ ∃ m,
        Media.ofText?
            "\x7b\"streams\":[\x7b\"width\":1280,\"height\":720\x7d]\x7d"
          = some m
        ∧ (ofDocument "job" d (some m)).frame = ⟨1280, 720⟩
        ∧ (ofDocument "job" d (some m)).components.map (·.position)
          = [⟨300, 150⟩]
        ∧ (d.withFrame ⟨1280, 720⟩).components.map (·.position)
          = [⟨200, 100⟩] := by
  have hread : Json.read
      ("\x7b\"canvas_width\":640,\"canvas_height\":360,\"nodes\":["
        ++ "\x7b\"type\":\"picture\",\"position\":[100,50]\x7d]\x7d")
      = .ok (.object [("canvas_width", .ofNat 640),
          ("canvas_height", .ofNat 360),
          ("nodes", .array [.object [("type", .string "picture"),
            ("position", .array [.ofNat 100, .ofNat 50])]])]) := by
    cbv
  refine ⟨_, Document.ofText_of_read hread, ⟨⟨1280, 720⟩, 0⟩, by cbv, rfl,
    ?_, ?_⟩
  · decide +kernel
  · decide +kernel

end Job

end TimedOverlay
