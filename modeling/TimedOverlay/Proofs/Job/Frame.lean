/-
Frames of jobs.

Both lengths of every frame are whole numbers between 1 and `2 ^ 32 - 1`:
those of a document, those of the standard frame, and those that a prober
reports (`Job.frame_valid`). A document that is given such a frame has
it (`Document.frame_withFrame`).
-/
import TimedOverlay.Job.Prepared
import TimedOverlay.Proofs.Binary64.Rounding
import TimedOverlay.Proofs.Json.Records

namespace TimedOverlay

open Magnitude (unitsPerOne unitsPerOne_pos whole whole_units)

/-- A length that is positive and has at most 32 bits. -/
def IsLength (n : Nat) : Prop := 0 < n ∧ n < 2 ^ 32

theorem IsLength.lt {n : Nat} (h : IsLength n) : n < 2 ^ 53 := by
  have := h.2
  omega

/-- A frame both lengths of which are such. -/
def Frame.Valid (f : Frame) : Prop := IsLength f.width ∧ IsLength f.height

-- ================================================================ pixels

namespace Document

/-- A number that is not below one rounds to a positive number. -/
theorem round?_pos {x : Binary64} (h : Binary64.le 1 x = true) {n : Int}
    (hn : x.round? = some n) : 0 < n := by
  cases x with
  | nan => cases hn
  | infinite s => cases hn
  | finite s m =>
      obtain ⟨rfl, hunits⟩ := Binary64.one_le_finite.1 h
      have hpos := unitsPerOne_pos
      have hdiv : 0 < (2 * m.units + unitsPerOne) / (2 * unitsPerOne) :=
        Nat.div_pos (by omega) (by omega)
      cases hn
      exact Int.natCast_pos.2 hdiv

theorem round?_ofNat {n : Nat} (h : n < 2 ^ 53) :
    (Binary64.ofNat n).round? = some (n : Int) := by
  have hpos := unitsPerOne_pos
  rw [Binary64.ofNat_eq h, Binary64.round?]
  have hdiv : (2 * (whole n h).units + unitsPerOne) / (2 * unitsPerOne)
      = n := by
    rw [whole_units, ← Nat.mul_assoc, Nat.mul_comm 2 n, Nat.mul_assoc,
      Nat.mul_comm n, Nat.mul_add_div (by omega),
      Nat.div_eq_of_lt (by omega), Nat.add_zero]
  rw [hdiv]
  rfl

theorem isLength_of_pixels? {x : Option Binary64} {n : Nat}
    (h : pixels? x = some n) : IsLength n := by
  unfold pixels? at h
  simp only [Option.bind_eq_bind, Option.bind_eq_some_iff,
    Option.filter_eq_some_iff] at h
  obtain ⟨y, ⟨_, hy⟩, i, hi, h⟩ := h
  have hpos := round?_pos hy hi
  obtain rfl := Option.some.inj h
  have hmin : i.toNat.min (2 ^ 32 - 1) ≤ 2 ^ 32 - 1 := Nat.min_le_right ..
  have hmin' : 1 ≤ i.toNat.min (2 ^ 32 - 1) :=
    Nat.le_min.2 ⟨by omega, by decide⟩
  exact ⟨hmin', by omega⟩

/-- A number that is rounded to a length is that many pixels. -/
theorem pixels?_of_round? {x : Binary64} {n : Nat}
    (hle : Binary64.le 1 x = true) (hround : x.round? = some (n : Int))
    (hn : n ≤ 2 ^ 32 - 1) : pixels? (some x) = some n := by
  unfold pixels?
  rw [Option.filter_some_pos hle]
  simp only [Option.bind_eq_bind, Option.bind_some, hround,
    Option.pure_def, Int.toNat_natCast]
  exact congrArg some (Nat.min_eq_left hn)

theorem pixels?_ofNat {n : Nat} (h : IsLength n) :
    pixels? (some (.ofNat n)) = some n := by
  have hle : n ≤ 2 ^ 32 - 1 := Nat.le_sub_one_of_lt h.2
  refine pixels?_of_round? ?_ (round?_ofNat h.lt) hle
  rw [Binary64.ofNat_eq h.lt]
  refine Binary64.one_le_finite.2 ⟨rfl, ?_⟩
  rw [whole_units]
  exact Nat.le_mul_of_pos_left _ h.1

-- ================================================================ frames

/-- The frame of a document has lengths. -/
theorem frame_valid (d : Document) : d.frame.Valid := by
  constructor
  · show IsLength ((pixels? d.videoWidth).getD Frame.standard.width)
    cases h : pixels? d.videoWidth with
    | none => exact ⟨by decide, by decide⟩
    | some n => exact isLength_of_pixels? h
  · show IsLength ((pixels? d.videoHeight).getD Frame.standard.height)
    cases h : pixels? d.videoHeight with
    | none => exact ⟨by decide, by decide⟩
    | some n => exact isLength_of_pixels? h

/-- The document with the lengths of its frame replaced. -/
def withFrame (d : Document) (f : Frame) : Document :=
  { d with
    videoWidth := some (.ofNat f.width)
    videoHeight := some (.ofNat f.height) }

theorem frame_withFrame (d : Document) {f : Frame} (h : f.Valid) :
    (d.withFrame f).frame = f := by
  unfold frame withFrame
  rw [pixels?_ofNat h.1, pixels?_ofNat h.2]
  rfl

end Document

namespace Media

/-- The lengths of a stream that are given have at most 32 bits. -/
def Stream.Bounded (s : Stream) : Prop :=
  (∀ n, s.width = some n → n < 2 ^ 32)
    ∧ ∀ n, s.height = some n → n < 2 ^ 32

theorem Stream.bounded_of_reader {m : Json.Mode} {o : Json.Outline}
    {s : Stream} (h : Stream.record.reader m o = .ok s) : s.Bounded := by
  refine Json.Record.invariant ⟨nofun, nofun⟩ ?_ h
  intro f hf m o a b ha hread
  simp only [Stream.record, List.mem_cons, List.not_mem_nil, or_false] at hf
  rcases hf with rfl | rfl
  · obtain ⟨w, hw, rfl⟩ := Json.map_eq_ok.1 hread
    refine ⟨fun n hn => ?_, ha.2⟩
    obtain rfl : w = some n := hn
    exact Json.Strict.natural_lt (Json.Strict.optional_some hw)
  · obtain ⟨w, hw, rfl⟩ := Json.map_eq_ok.1 hread
    refine ⟨ha.1, fun n hn => ?_⟩
    obtain rfl : w = some n := hn
    exact Json.Strict.natural_lt (Json.Strict.optional_some hw)

theorem Answer.bounded_of_ofText {s : String} {a : Answer}
    (h : Answer.record.ofText s = .ok a) : ∀ t ∈ a.streams, t.Bounded := by
  refine Json.Record.ofText_invariant (P := fun a : Answer =>
    ∀ t ∈ a.streams, t.Bounded) (by simp [Answer.record]) ?_ h
  intro f hf m o a b ha hread
  simp only [Answer.record, List.mem_cons, List.not_mem_nil, or_false] at hf
  rcases hf with rfl | rfl
  · obtain ⟨ts, hts, rfl⟩ := Json.map_eq_ok.1 hread
    exact Json.Strict.list_forall
      (fun _ _ _ => Stream.bounded_of_reader) hts
  · obtain ⟨_, _, rfl⟩ := Json.map_eq_ok.1 hread
    exact ha

/-- What a prober reports is a frame. -/
theorem frame_valid {s : String} {m : Media} (h : ofText? s = some m) :
    m.frame.Valid := by
  unfold ofText? at h
  split at h
  next a ha =>
    unfold ofAnswer? at h
    simp only [Option.bind_eq_bind, Option.bind_eq_some_iff,
      Option.filter_eq_some_iff] at h
    obtain ⟨t, ht, w, ⟨hw, hwpos⟩, v, ⟨hv, hvpos⟩, h⟩ := h
    have hbounded := Answer.bounded_of_ofText ha t (List.mem_of_head? ht)
    cases h
    exact ⟨⟨of_decide_eq_true hwpos, hbounded.1 w hw⟩,
      of_decide_eq_true hvpos, hbounded.2 v hv⟩
  next => cases h

end Media

/-- The frame of a job has lengths, whatever a prober answers. -/
theorem Job.frame_valid (id : String) (d : Document)
    (answer : Option String) :
    (ofDocument id d (answer.bind Media.ofText?)).frame.Valid := by
  unfold ofDocument
  cases h : answer.bind Media.ofText? with
  | none => exact d.frame_valid
  | some m =>
      obtain ⟨s, _, hs⟩ := Option.bind_eq_some_iff.1 h
      dsimp only
      split
      next => exact d.frame_valid
      next => exact Media.frame_valid hs

/-- A job that is loaded is that of the document in its file; all that is
known of a video is what a prober answered. -/
theorem Job.ofDocument_of_load {h : Host} {settings : EngineSettings}
    {path : SystemString} {video : Option SystemString} {fs : FileSystem} {job : Job}
    (hload : (load h settings path video fs).1 = .ok job) :
    ∃ (d : Document) (answer : Option String), Document.load fs path = .ok d
      ∧ job = ofDocument (idOf path) d (answer.bind Media.ofText?) := by
  unfold load at hload
  split at hload
  next => cases hload
  next d hd =>
    cases video with
    | none =>
        cases hload
        exact ⟨d, none, hd, rfl⟩
    | some video =>
        cases hload
        cases h.start settings.prober (Media.arguments video) fs with
        | error _ => exact ⟨d, none, hd, rfl⟩
        | ok _ => exact ⟨d, _, hd, rfl⟩

end TimedOverlay
