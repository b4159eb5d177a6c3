/-
What a video is asked for.

A document may give the width, the height and the duration of its video,
and a video that is asked gives all three. What the document leaves open
is taken from the video, whatever else it says. For the duration that is
all there is to it (`Job.duration_eq_getD`). The lengths of the frame are
taken together: a document that gives only one of them has both from the
video, and the one that it gives is passed over.

So a length is filled in as it should be exactly if the document gives
the other one, too, or leaves it to the video, or gives what the video
has (`Job.probe_fills_iff`).
-/
import TimedOverlay.Proofs.Console.DryRun
import TimedOverlay.Proofs.Job.Frame

namespace TimedOverlay

namespace Binary64

theorem zero_eq_ofNat : zero = 0 := by
  rw [zero_eq]
  simp [zero, Magnitude.zero, Magnitude.whole]

theorem orZero_of_pos {x : Binary64} (h : lt 0 x = true) : x.orZero = x := by
  unfold orZero
  rw [zero_eq_ofNat, if_pos h]

theorem orZero_of_not_pos {x : Binary64} (h : lt 0 x = false) :
    x.orZero = 0 := by
  unfold orZero
  rw [zero_eq_ofNat, h]
  rfl

end Binary64

namespace Document

/-- The duration that a document gives. One that is not positive is
none. -/
def ownDuration (d : Document) : Option Binary64 :=
  d.videoDuration.filter (Binary64.lt 0)

theorem duration_of_ownDuration {d : Document} {x : Binary64}
    (h : d.ownDuration = some x) :
    d.duration = x ∧ Binary64.lt 0 x = true := by
  obtain ⟨hx, hpos⟩ := Option.filter_eq_some_iff.1 h
  unfold duration
  rw [hx, Option.getD_some]
  exact ⟨Binary64.orZero_of_pos hpos, hpos⟩

theorem duration_of_ownDuration_none {d : Document}
    (h : d.ownDuration = none) : d.duration = 0 := by
  unfold duration
  apply Binary64.orZero_of_not_pos
  cases hx : d.videoDuration with
  | none =>
      show Binary64.lt 0 0 = false
      rw [Binary64.zero_eq, Bool.eq_false_iff]
      intro hlt
      exact Int.lt_irrefl _ (Binary64.lt_finite.1 hlt)
  | some x =>
      unfold ownDuration at h
      rw [hx, Option.filter_eq_none_iff] at h
      exact Bool.eq_false_iff.2 (h x rfl)

end Document

namespace Job

variable (id : String) (d : Document) (m : Media)

-- ============================================================= durations

/-- A job lasts as long as its document says, or else as its video. -/
theorem duration_eq_getD :
    (ofDocument id d (some m)).duration
      = d.ownDuration.getD m.duration := by
  cases hown : d.ownDuration with
  | none =>
      have hzero := Document.duration_of_ownDuration_none hown
      show (if d.duration.le 0 then m.duration else d.duration) = m.duration
      have hle : Binary64.le 0 0 = true := by
        rw [Binary64.zero_eq]
        exact Binary64.le_finite.2 (Int.le_refl _)
      rw [hzero, hle]
      rfl
  | some x =>
      obtain ⟨hx, hpos⟩ := Document.duration_of_ownDuration hown
      rw [duration_of_pos id (some m) (by rw [hx]; exact hpos), hx]
      rfl

-- ================================================================ frames

/-- A document that gives both lengths of its frame keeps them. -/
theorem frame_of_both {w v : Nat}
    (hw : Document.pixels? d.videoWidth = some w)
    (hv : Document.pixels? d.videoHeight = some v) :
    (ofDocument id d (some m)).frame = ⟨w, v⟩ := by
  have hframe : d.hasFrame = true := by
    unfold Document.hasFrame
    rw [hw, hv]
    rfl
  show (if d.hasFrame then d.frame else m.frame) = ⟨w, v⟩
  rw [if_pos hframe, Document.frame, hw, hv]
  rfl

/-- A document that does not give both lengths has them from the
video. -/
theorem frame_of_missing
    (h : Document.pixels? d.videoWidth = none
      ∨ Document.pixels? d.videoHeight = none) :
    (ofDocument id d (some m)).frame = m.frame := by
  have hframe : d.hasFrame = false := by
    unfold Document.hasFrame
    rcases h with h | h
    · rw [h]
      rfl
    · rw [h]
      exact Bool.and_false _
  show (if d.hasFrame then d.frame else m.frame) = m.frame
  rw [hframe]
  rfl

/-- A width that is missing is filled in, and one that is given is kept,
exactly if the document gives its height, too, or gives no other width
than the video has. -/
theorem width_eq_getD_iff :
    (ofDocument id d (some m)).frame.width
        = (Document.pixels? d.videoWidth).getD m.frame.width
      ↔ Document.pixels? d.videoHeight ≠ none
        ∨ ∀ w, Document.pixels? d.videoWidth = some w →
          w = m.frame.width := by
  cases hw : Document.pixels? d.videoWidth with
  | none =>
      rw [frame_of_missing id d m (.inl hw)]
      exact ⟨fun _ => .inr nofun, fun _ => rfl⟩
  | some w =>
      cases hv : Document.pixels? d.videoHeight with
      | none =>
          rw [frame_of_missing id d m (.inr hv)]
          simp only [Option.getD_some, ne_eq, not_true_eq_false, false_or,
            Option.some.injEq, forall_eq']
          exact eq_comm
      | some v =>
          rw [frame_of_both id d m hw hv]
          exact ⟨fun _ => .inl nofun, fun _ => rfl⟩

/-- The same of a height. -/
theorem height_eq_getD_iff :
    (ofDocument id d (some m)).frame.height
        = (Document.pixels? d.videoHeight).getD m.frame.height
      ↔ Document.pixels? d.videoWidth ≠ none
        ∨ ∀ v, Document.pixels? d.videoHeight = some v →
          v = m.frame.height := by
  cases hv : Document.pixels? d.videoHeight with
  | none =>
      rw [frame_of_missing id d m (.inr hv)]
      exact ⟨fun _ => .inr nofun, fun _ => rfl⟩
  | some v =>
      cases hw : Document.pixels? d.videoWidth with
      | none =>
          rw [frame_of_missing id d m (.inl hw)]
          simp only [Option.getD_some, ne_eq, not_true_eq_false, false_or,
            Option.some.injEq, forall_eq']
          exact eq_comm
      | some w =>
          rw [frame_of_both id d m hw hv]
          exact ⟨fun _ => .inl nofun, fun _ => rfl⟩

-- =============================================================== probing

variable {id d m} {h : Host} {settings : EngineSettings} {path : SystemString}
  {fs : FileSystem}

/-- For every document and every video that answers there is a job. Its
duration is that of the document, or of the video where the document has
none. Its width is that of the document, or of the video where the
document has none, exactly if the document gives its height, too, or no
other width than the video; and its height likewise. The frame of a
document that lacks either is that of the video. -/
theorem probe_fills_iff (video : SystemString)
    (hdocument : Document.load fs path = .ok d)
    (hanswer : (Media.probe h settings.prober video fs).1 = some m) :
    ∃ j, (load h settings path (some video) fs).1 = .ok j
      ∧ j.duration = d.ownDuration.getD m.duration
      ∧ (j.frame.width = (Document.pixels? d.videoWidth).getD m.frame.width
        ↔ Document.pixels? d.videoHeight ≠ none
          ∨ ∀ w, Document.pixels? d.videoWidth = some w →
            w = m.frame.width)
      ∧ (j.frame.height
            = (Document.pixels? d.videoHeight).getD m.frame.height
        ↔ Document.pixels? d.videoWidth ≠ none
          ∨ ∀ v, Document.pixels? d.videoHeight = some v →
            v = m.frame.height)
      ∧ (Document.pixels? d.videoWidth = none
          ∨ Document.pixels? d.videoHeight = none →
        j.frame = m.frame) := by
  refine ⟨ofDocument (idOf path) d (some m), ?_, duration_eq_getD _ d m,
    width_eq_getD_iff _ d m, height_eq_getD_iff _ d m,
    frame_of_missing _ d m⟩
  rw [load_of_document hdocument (some video), Option.bind_some, hanswer]

/-- A document that says nothing of its video has all of it from the
answer. -/
theorem probe_fills_open :
    ∃ j, (load (Console.answering 0) Console.unset.engine "job.json"
        (some "v.mp4") Console.desk).1 = .ok j
      ∧ j.duration = 8 ∧ j.frame = ⟨640, 360⟩ := by
  have hanswer : (Media.probe (Console.answering 0)
      Console.unset.engine.prober "v.mp4" Console.desk).1
        = some ⟨⟨640, 360⟩, 8⟩ := by
    show (Media.probe (Console.answering 0) "ffprobe" "v.mp4"
      Console.desk).1 = _
    rw [Console.probe_answering]
  obtain ⟨j, hj, hduration, hwidth, hheight, -⟩ :=
    probe_fills_iff "v.mp4" Console.load_desk hanswer
  have hw := hwidth.2 (.inr nofun)
  have hv := hheight.2 (.inr nofun)
  refine ⟨j, hj, hduration, ?_⟩
  obtain ⟨id, components, ⟨width, height⟩, duration⟩ := j
  simp only at hw hv
  rw [hw, hv]
  rfl

/-- A document that gives its width alone loses it to the video. -/
theorem probe_overrides_width :
    ∃ d, Document.ofText "\x7b\"video_width\":640\x7d" = .ok d
      ∧ ∃ m,
        Media.ofText?
            "\x7b\"streams\":[\x7b\"width\":1280,\"height\":720\x7d]\x7d"
          = some m
        ∧ Document.pixels? d.videoWidth = some 640
        ∧ (ofDocument "job" d (some m)).frame.width = 1280 := by
  have hread : Json.read "\x7b\"video_width\":640\x7d"
      = .ok (.object [("video_width", .ofNat 640)]) := by
    cbv
  refine ⟨_, Document.ofText_of_read hread, ⟨⟨1280, 720⟩, 0⟩, by cbv, ?_,
    ?_⟩
  · decide +kernel
  · decide +kernel

end Job

end TimedOverlay
