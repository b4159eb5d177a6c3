/-
Prepared jobs are well formed.

A job is put together from two texts that nobody has checked, the
document and the answer of a prober. Whatever they say, what comes out is
in order (`Job.WellFormed`): the frame has lengths, the duration is a
number of seconds, the times of all components are finite, opacities lie
between zero and one, and the box behind a text is filled and casts no
shadow.

Each of these is settled where a value enters. A loose number is finite,
so times and durations are; a duration of the prober is taken only if it
is finite and not negative; what a style says is held in range when it
becomes that of a shape. Scaling touches none of it. The ends of windows
are times or the duration, so they are finite as well, and the gate of a
window always shows the ends that it has (`Job.wellFormed_of_text`).
-/
import TimedOverlay.Proofs.Decimal.Canonical
import TimedOverlay.Proofs.Job.Opacity
import TimedOverlay.Proofs.Job.Probing
import TimedOverlay.Proofs.Program.Gating
import TimedOverlay.Proofs.Program.Windows

namespace TimedOverlay

-- ============================================================= durations

namespace Binary64

/-- A length of time: finite and not negative. -/
def IsSpan (x : Binary64) : Prop := x.isFinite = true ∧ le 0 x = true

theorem isSpan_zero : IsSpan 0 := ⟨by decide +kernel, by decide +kernel⟩

/-- What is finite is a span or counts as zero. -/
theorem isSpan_orZero {x : Binary64} (h : x.isFinite = true) :
    x.orZero.IsSpan := by
  cases hpos : lt 0 x with
  | true =>
      rw [orZero_of_pos hpos]
      exact ⟨h, by rw [le, hpos, Bool.true_or]⟩
  | false =>
      rw [orZero_of_not_pos hpos]
      exact isSpan_zero

end Binary64

/-- Whatever a prober says of a duration, a span is taken. -/
theorem Media.isSpan_durationOf (text : Option String) :
    (durationOf text).IsSpan := by
  unfold durationOf
  dsimp only
  generalize (text.bind fun s => Binary64.numeral? (Text.trim s.toList)) = x
  cases hx : x.filter fun x => x.isFinite && Binary64.le 0 x with
  | none => exact Binary64.isSpan_zero
  | some y =>
      obtain ⟨-, hy⟩ := Option.filter_eq_some_iff.1 hx
      rw [Bool.and_eq_true] at hy
      exact hy

theorem Media.isSpan_duration {s : String} {m : Media}
    (h : ofText? s = some m) : m.duration.IsSpan := by
  unfold ofText? at h
  split at h
  next a _ =>
    unfold ofAnswer? at h
    simp only [Option.bind_eq_bind, Option.bind_eq_some_iff] at h
    obtain ⟨_, -, _, -, _, -, h⟩ := h
    obtain rfl := Option.some.inj h
    exact isSpan_durationOf a.duration
  next => cases h

-- ============================================================ components

/-- The box behind a text, if there is one. -/
def Content.background? : Content → Option ShapeStyle
  | .text block => block.style.background
  | _ => none

/-- Filled with a color, and without a shadow. -/
def ShapeStyle.IsBackdrop (s : ShapeStyle) : Prop :=
  (∃ c, s.fill = .solid c) ∧ s.shadow = none

/-- A component without a surprise for who draws it. -/
structure Component.WellFormed (c : Component) : Prop where
  timestamps : ∀ t ∈ c.timestamps, t.isFinite = true
  opacities : ∀ x ∈ c.content.opacities, x.InUnit
  backdrop : ∀ b, c.content.background? = some b → b.IsBackdrop

theorem Loose.isFinite_of_mem_numbers {field : Option Json.Value}
    {x : Binary64} (h : x ∈ numbers field) : x.isFinite = true := by
  unfold numbers at h
  split at h
  next items =>
    obtain ⟨v, -, hv⟩ := List.mem_filterMap.1 h
    exact isFinite_of_number? hv
  next => cases h

theorem StyleSheet.isBackdrop_background? {s : StyleSheet} {b : ShapeStyle}
    (h : s.background? = some b) : b.IsBackdrop := by
  unfold background? at h
  split at h
  next c _ =>
    split at h
    next =>
      obtain rfl := Option.some.inj h
      exact ⟨⟨c, rfl⟩, rfl⟩
    next => cases h
  next => cases h

theorem ShapeStyle.IsBackdrop.scale {s : ShapeStyle} (h : s.IsBackdrop)
    (sx sy : Binary64) : (s.scale sx sy).IsBackdrop := by
  obtain ⟨hfill, hshadow⟩ := h
  refine ⟨hfill, ?_⟩
  show s.shadow.map (Shadow.scale sx sy) = none
  rw [hshadow]
  rfl

/-- Scaling keeps a component in order. -/
theorem Component.WellFormed.scale {c : Component} (h : c.WellFormed)
    (sx sy : Binary64) : (c.scale sx sy).WellFormed where
  timestamps := h.timestamps
  opacities := by
    rw [content_scale, Content.opacities_scale]
    exact h.opacities
  backdrop := by
    intro b hb
    rw [content_scale] at hb
    cases hc : c.content with
    | text block =>
        rw [hc] at hb
        obtain ⟨b', hb', rfl⟩ := Option.map_eq_some_iff.1 hb
        exact (h.backdrop b' (by rw [hc]; exact hb')).scale sx sy
    | rectangle style | circle style | picture picture | line segment =>
        rw [hc] at hb
        cases hb

/-- The component of a node is in order, whatever its fields hold. -/
theorem Node.wellFormed_component? {get : String → Option Json.Value}
    {c : Component} (h : (ofFields get).component? = some c) :
    c.WellFormed := by
  obtain ⟨kind, -, hcontent, -, htimes⟩ := of_component? h
  constructor
  · rw [htimes]
    exact fun t ht => Loose.isFinite_of_mem_numbers ht
  · rw [hcontent]
    exact inUnit_content (StyleSheet.finite_ofField _) kind
  · intro b hb
    rw [hcontent] at hb
    cases kind with
    | text => exact StyleSheet.isBackdrop_background? hb
    | rectangle | circle | picture | line => cases hb

-- ============================================================= documents

namespace Document

variable {raw : String} {d : Document}

theorem exists_ofFields (h : ofText raw = .ok d) :
    ∃ get, d = ofFields get := by
  obtain ⟨vs, -, rfl⟩ := Json.map_eq_ok.1 h
  exact ⟨_, rfl⟩

/-- A document has a span for its duration, if only zero. -/
theorem isSpan_duration (h : ofText raw = .ok d) : d.duration.IsSpan := by
  obtain ⟨get, rfl⟩ := exists_ofFields h
  refine Binary64.isSpan_orZero ?_
  show ((Loose.number? (get "video_duration")).getD 0).isFinite = true
  cases hx : Loose.number? (get "video_duration") with
  | none => exact Binary64.isSpan_zero.1
  | some x => exact Loose.isFinite_of_number? hx

theorem wellFormed_of_mem_components (h : ofText raw = .ok d) :
    ∀ c ∈ d.components, c.WellFormed := by
  intro c hc
  obtain ⟨n, hn, b, hb, rfl⟩ := d.mem_components.1 hc
  obtain ⟨get, rfl⟩ := fields_of_mem_nodes h hn
  have hwell := Node.wellFormed_component? hb
  rcases d.place_cases b with hplace | hplace
  · rw [hplace]
    exact hwell
  · rw [hplace]
    exact hwell.scale _ _

end Document

-- =============================================================== windows

namespace Window

/-- The gate of a window shows its ends: they are finite, and each is
written as the number of thousandths that is nearest to it. -/
def Shown (w : Window) : Prop :=
  ∃ (a b : ℚ) (m n : ℤ),
    w.start.value? = some a ∧ w.stop.value? = some b
      ∧ NearestEven (1000 * a) m ∧ NearestEven (1000 * b) n
      ∧ w.gate = "between(t," ++ Binary64.thousandthsText m ++ ","
        ++ Binary64.thousandthsText n ++ ")"

theorem shown_of_finite {w : Window} (hstart : w.start.isFinite = true)
    (hstop : w.stop.isFinite = true) : w.Shown := by
  have hvalue {x : Binary64} (h : x.isFinite = true) :
      ∃ a, x.value? = some a := by
    cases x with
    | nan => cases h
    | infinite s => cases h
    | finite s m => exact ⟨_, rfl⟩
  obtain ⟨a, ha⟩ := hvalue hstart
  obtain ⟨b, hb⟩ := hvalue hstop
  obtain ⟨m, hm, hstart⟩ := Binary64.exists_thousandths ha
  obtain ⟨n, hn, hstop⟩ := Binary64.exists_thousandths hb
  refine ⟨a, b, m, n, ha, hb, hm, hn, ?_⟩
  unfold gate
  rw [hstart, hstop]

end Window

/-- Every instruction of a program stands in a window of one of its
components. -/
theorem Program.exists_window {duration : Binary64} {cs : List Component}
    {i : Instruction} (h : i ∈ (compile duration cs).instructions) :
    ∃ c ∈ cs, i.window ∈ (c.compile duration).windows := by
  rw [instructions_compile] at h
  obtain ⟨c, hc, hi⟩ := List.mem_flatMap.1 h
  refine ⟨c, hc, ?_⟩
  rw [Component.compile, Component.synthesize_eq_flatMap] at hi
  obtain ⟨w, hw, hi⟩ := List.mem_flatMap.1 hi
  obtain ⟨d, -, rfl⟩ := List.mem_map.1 hi
  exact hw

-- ================================================================== jobs

namespace Job

/-- A job without a surprise for who draws it. -/
structure WellFormed (job : Job) : Prop where
  frame : job.frame.Valid
  duration : job.duration.IsSpan
  components : ∀ c ∈ job.components, c.WellFormed

/-- All windows of a job are shown in their gates: those of its
components, and those of the instructions that it is compiled to. -/
structure Gated (job : Job) : Prop where
  windows : ∀ c ∈ job.components,
    ∀ w ∈ (c.compile job.duration).windows, w.Shown
  instructions :
    ∀ i ∈ (Program.compile job.duration job.components).instructions,
      i.window.Shown

theorem WellFormed.gated {job : Job} (h : job.WellFormed) : job.Gated := by
  have hwindows : ∀ c ∈ job.components,
      ∀ w ∈ (c.compile job.duration).windows, w.Shown := by
    intro c hc w hw
    have htimes := (h.components c hc).timestamps
    obtain ⟨hstart, hstop⟩ := Window.ends_of_mem_resolve hw
    refine Window.shown_of_finite (htimes _ hstart) ?_
    rcases hstop with hstop | hstop
    · exact htimes _ hstop
    · rw [hstop]
      exact h.duration.1
  refine ⟨hwindows, fun i hi => ?_⟩
  obtain ⟨c, hc, hw⟩ := Program.exists_window hi
  exact hwindows c hc _ hw

/-- What is known of a video makes no difference to a job being in
order. -/
theorem wellFormed_ofDocument {raw : String} {d : Document}
    (h : Document.ofText raw = .ok d) (id : String)
    (answer : Option String) :
    (ofDocument id d (answer.bind Media.ofText?)).WellFormed where
  frame := frame_valid id d answer
  duration := by
    unfold ofDocument
    cases hknown : answer.bind Media.ofText? with
    | none => exact Document.isSpan_duration h
    | some m =>
        obtain ⟨s, -, hs⟩ := Option.bind_eq_some_iff.1 hknown
        dsimp only
        split
        next => exact Media.isSpan_duration hs
        next => exact Document.isSpan_duration h
  components := Document.wellFormed_of_mem_components h

/-- Whatever an accepted document says and whatever a prober answers, the
job is well formed, and every window of it is shown in its gate. So is
the job that is loaded from a file with such a document, on any machine
and for any video; and there always is one. -/
theorem wellFormed_of_text {raw : String} {d : Document}
    (h : Document.ofText raw = .ok d) :
    (∀ (id : String) (answer : Option String),
        (ofDocument id d (answer.bind Media.ofText?)).WellFormed
          ∧ (ofDocument id d (answer.bind Media.ofText?)).Gated)
      ∧ ∀ (host : Host) (settings : EngineSettings) (path : SystemString)
          (video : Option SystemString) (fs : FileSystem),
        fs.text path = .ok raw →
          ∃ job, (load host settings path video fs).1 = .ok job
            ∧ job.WellFormed ∧ job.Gated := by
  constructor
  · intro id answer
    have hwell := wellFormed_ofDocument h id answer
    exact ⟨hwell, hwell.gated⟩
  · intro host settings path video fs htext
    have hdocument := Document.load_of_text htext h
    have hload : (load host settings path video fs).1 = .ok _ :=
      load_of_document hdocument video
    obtain ⟨d', answer, hd', hjob⟩ := ofDocument_of_load hload
    rw [hdocument] at hd'
    obtain rfl := Except.ok.inj hd'
    have hwell := wellFormed_ofDocument h (idOf path) answer
    rw [← hjob] at hwell
    exact ⟨_, hload, hwell, hwell.gated⟩

/-- A document with a frame of less than a pixel, a negative duration, a
time that is no number and an opacity of seven. -/
def unruly : String :=
  "\x7b\"video_width\":\"0.4\",\"video_duration\":-5,\"nodes\":[\x7b"
    ++ "\"type\":\"text\",\"data\":\x7b\"timestamps\":[\"nan\",1],"
    ++ "\"styles\":\x7b\"fillColor\":\"#000\",\"fillType\":\"box\","
    ++ "\"opacity\":7,\"hasShadow\":1\x7d\x7d\x7d]\x7d"

/-- An answer with a duration beyond every double. -/
def endless : String :=
  "\x7b\"streams\":[\x7b\"width\":640,\"height\":360\x7d],"
    ++ "\"format\":\x7b\"duration\":\" 1e400 \"\x7d\x7d"

/-- What they say is put in order: the box is opaque, and the text is
shown from one second on to the end, which is not known. -/
theorem wellFormed_of_text_unruly :
    ∃ d, Document.ofText unruly = .ok d
      ∧ ∃ job, job = ofDocument "job" d (Media.ofText? endless)
        ∧ job.frame = ⟨640, 360⟩ ∧ job.duration = 0
        ∧ (job.components.flatMap fun c => c.content.opacities)
          = [1, Shadow.ofText.opacity]
        ∧ (job.components.flatMap fun c =>
            (c.compile job.duration).windows.map Window.gate)
          = ["between(t,1,0)"]
        ∧ job.WellFormed ∧ job.Gated := by
  have hread : Json.read unruly
      = .ok (.object [("video_width", .string "0.4"),
          ("video_duration", .number (.integer (-5))),
          ("nodes", .array [.object [("type", .string "text"),
            ("data", .object [("timestamps", .array [.string "nan", .ofNat 1]),
              ("styles", .object [("fillColor", .string "#000"),
                ("fillType", .string "box"), ("opacity", .ofNat 7),
                ("hasShadow", .ofNat 1)])])]])]) := by
    cbv
  have hanswer : Media.Answer.record.ofText endless
      = .ok ⟨[⟨some 640, some 360⟩], some " 1e400 "⟩ := by
    cbv
  have hduration : Media.durationOf (some " 1e400 ") = 0 := by
    decide +kernel
  have hknown : Media.ofText? endless = some ⟨⟨640, 360⟩, 0⟩ := by
    unfold Media.ofText?
    rw [hanswer]
    show some (⟨⟨640, 360⟩, Media.durationOf (some " 1e400 ")⟩ : Media) = _
    rw [hduration]
  have hd := Document.ofText_of_read hread
  obtain ⟨hwell, hgated⟩ := (wellFormed_of_text hd).1 "job" (some endless)
  refine ⟨_, hd, _, rfl, ?_, ?_, ?_, ?_, hwell, hgated⟩
  all_goals rw [hknown]
  · decide +kernel
  · decide +kernel
  · decide +kernel
  · decide +kernel

end Job

end TimedOverlay
