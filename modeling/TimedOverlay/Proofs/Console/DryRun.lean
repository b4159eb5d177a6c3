/-
A plan shows the command that a drawing runs.

The two commands prepare their job by different rules: a plan always
asks the video for what the document leaves open, a drawing only if it is
told to. Of what the video answers, the arguments of the engine can tell
no more than the duration. The frame is only reported; components are
placed by the document alone; the budget is not an argument. And of the
duration they tell no more than when the last window of a component with
an odd number of times is closed (`Window.resolve_of_even`).

So the jobs of both commands have the same program wherever the answer
was the same, the document has a duration, or no component has such a
window (`Job.program_congr`), and then the command that is shown is the
one that is run (`Console.plan_shows_attempt`).
-/
import TimedOverlay.Console.Reply
import TimedOverlay.Proofs.Engine.Source
import TimedOverlay.Proofs.Job.Admission
import TimedOverlay.Proofs.Program.Composition
import TimedOverlay.Proofs.Program.Windows
import TimedOverlay.Proofs.Text.Encoding

namespace TimedOverlay

open Json (Value)

-- ============================================================= durations

/-- The times of a component come in pairs. -/
def Component.Paired (c : Component) : Prop := c.timestamps.length % 2 = 0

instance (c : Component) : Decidable c.Paired :=
  inferInstanceAs (Decidable (_ = _))

/-- Components whose times come in pairs are drawn alike in videos of any
length. -/
theorem Program.compile_of_paired (duration other : Binary64)
    {cs : List Component} (hpaired : ∀ c ∈ cs, c.Paired) :
    compile duration cs = compile other cs := by
  have hgroups : cs.map (fun c => (c.compile duration).instructions)
      = cs.map fun c => (c.compile other).instructions := by
    apply List.map_congr_left
    intro c hc
    show c.synthesize (Window.resolve duration c.timestamps)
      = c.synthesize (Window.resolve other c.timestamps)
    rw [Window.resolve_of_even duration other (hpaired c hc)]
  unfold compile
  rw [hgroups]

-- ================================================================== jobs

/-- A file of text that spells a document holds it. -/
theorem Document.load_of_text {fs : FileSystem} {path : SystemString} {s : String}
    {d : Document} (htext : fs.text path = .ok s)
    (hd : ofText s = .ok d) : load fs path = .ok d := by
  unfold load
  rw [holds_of_text htext, htext]
  simp only [Bool.not_true, Bool.false_eq_true, if_false, hd]

namespace Job

/-- A document with a duration keeps it, whatever is known of the
video. -/
theorem duration_of_pos (id : String) {d : Document}
    (known : Option Media) (hpos : Binary64.lt 0 d.duration = true) :
    (ofDocument id d known).duration = d.duration := by
  unfold ofDocument
  cases known with
  | none => rfl
  | some m =>
      have hle : d.duration.le 0 = false := Binary64.le_eq_false_of_lt hpos
      simp [hle]

/-- What is known of a video makes no difference to the program of a
document that has a duration, or whose components have their times in
pairs. -/
theorem program_congr (id : String) {d : Document}
    {known known' : Option Media}
    (h : known = known' ∨ Binary64.lt 0 d.duration = true
      ∨ ∀ c ∈ d.components, c.Paired) :
    (ofDocument id d known).program = (ofDocument id d known').program := by
  rcases h with rfl | hpos | hpaired
  · rfl
  · show Program.compile (ofDocument id d known).duration d.components
      = Program.compile (ofDocument id d known').duration d.components
    rw [duration_of_pos id known hpos, duration_of_pos id known' hpos]
  · show Program.compile (ofDocument id d known).duration d.components
      = Program.compile (ofDocument id d known').duration d.components
    exact Program.compile_of_paired _ _ hpaired

variable {h : Host} {settings : EngineSettings} {path : SystemString}
  {fs : FileSystem} {d : Document}

/-- The job in a file for a video that is asked: that of its document and
of the answer. -/
theorem load_asking (hload : Document.load fs path = .ok d)
    (video : SystemString) :
    load h settings path (some video) fs
      = (.ok (ofDocument (idOf path) d
          (Media.probe h settings.prober video fs).1),
        (Media.probe h settings.prober video fs).2) := by
  unfold load
  rw [hload]

/-- The job in a file, whether or not there is a video to ask. -/
theorem load_of_document (hload : Document.load fs path = .ok d)
    (video : Option SystemString) :
    (load h settings path video fs).1
      = .ok (ofDocument (idOf path) d (video.bind fun v =>
          (Media.probe h settings.prober v fs).1)) := by
  cases video with
  | none =>
      unfold load
      rw [hload]
      rfl
  | some v =>
      rw [load_asking hload]
      rfl

end Job

-- ============================================================== attempts

/-- An attempt is made with the arguments that draw the components of the
export, or not at all. -/
theorem Export.arguments_of_attempt {e : Export} {h : Host}
    {o : EngineOptions} {fs : FileSystem} {args : List String}
    (hattempt : (e.render h o fs).attempt = some args) :
    args = o.arguments e.source (Program.compile e.duration e.components)
      e.output := by
  cases hsource : fs.isFile e.source with
  | false =>
      rw [render_of_noSource hsource] at hattempt
      cases hattempt
  | true =>
      rw [render_of_source hsource] at hattempt
      rcases Program.render_cases h o e.source
          (Program.compile e.duration e.components) e.output fs with
        ⟨dir, fault, _, hr⟩
        | ⟨_, ⟨_, hr⟩ | ⟨_, ⟨fault, _, hr⟩ | ⟨c, _, hr⟩⟩⟩
      · rw [hr] at hattempt
        cases hattempt
      · rw [hr] at hattempt
        cases hattempt
      · rw [hr] at hattempt
        exact (Option.some.inj hattempt).symm
      · rw [hr] at hattempt
        exact (Option.some.inj hattempt).symm

namespace Console

variable (h h' : Host) (s : Settings) (path video : SystemString)
  (output : Option SystemString) (timeout : Option UInt64) (probe : Bool)
  (report : Option SystemString) (fs fs' : FileSystem)

/-- A budget of its own does not show in the arguments of an engine. -/
theorem arguments_engineOptions :
    (engineOptions s timeout).arguments
      = (EngineOptions.ofSettings s.engine).arguments := by
  unfold engineOptions
  cases timeout with
  | none => rfl
  | some seconds => rfl

/-- A listing ends with the command: the engine and its arguments, with
spaces between them. -/
theorem getLast?_listing (j : Job) (engine : String)
    (args : List String) :
    (listing path j engine args).getLast?
      = some ("  " ++ engine ++ " " ++ String.intercalate " " args) := by
  unfold listing
  rw [List.getLast?_append]
  rfl

/-- A plan shows no more of a job in its command than its name and its
program. -/
theorem plannedArguments_congr {j k : Job} (hid : j.id = k.id)
    (hprogram : j.program = k.program) (video : Option SystemString) :
    plannedArguments s j video output
      = plannedArguments s k video output := by
  show (EngineOptions.ofSettings s.engine).arguments
      (video.getD unnamedVideo) j.program (output.getD (s.outputFor j.id))
    = (EngineOptions.ofSettings s.engine).arguments
      (video.getD unnamedVideo) k.program (output.getD (s.outputFor k.id))
  rw [hid, hprogram]

/-- The attempt of a drawing is that of its export, however it ends and
whatever becomes of the report. -/
theorem attempt_render {j : Job} {left : FileSystem}
    (hload : Job.load h s.engine path (if probe then some video else none) fs
      = (.ok j, left)) :
    (render h s path video output timeout probe report fs).attempt
      = (Export.render
          ⟨video, output.getD (s.outputFor j.id), j.components, j.duration⟩ h
          (engineOptions s timeout) left).attempt := by
  unfold render
  simp only [hload]
  split
  next => rfl
  next =>
    split
    next => rfl
    next => rfl

/-- The arguments with which a drawing starts its engine are those that a
plan would show of its job. -/
theorem plannedArguments_of_attempt {args : List String}
    (hattempt : (render h s path video output timeout probe report
      fs).attempt = some args) :
    ∃ j, (Job.load h s.engine path (if probe then some video else none)
        fs).1 = .ok j
      ∧ args = plannedArguments s j (some video) output := by
  rcases hload : Job.load h s.engine path (if probe then some video else none)
      fs with ⟨d | j, left⟩
  -- Without a job nothing is attempted.
  · unfold render at hattempt
    simp only [hload] at hattempt
    cases hattempt
  · rw [attempt_render h s path video output timeout probe report fs hload]
      at hattempt
    refine ⟨j, rfl, ?_⟩
    rw [Export.arguments_of_attempt hattempt, arguments_engineOptions]
    rfl

/-- A plan for a document lists its job with the arguments that draw
it. -/
theorem plan_of_document {d : Document}
    (hdocument : Document.load fs path = .ok d) :
    ∃ left, plan h s path (some video) output fs
      = .quiet
          (listing path
            (Job.ofDocument (Job.idOf path) d
              (Media.probe h s.engine.prober video fs).1)
            s.engine.engine
            (plannedArguments s
              (Job.ofDocument (Job.idOf path) d
                (Media.probe h s.engine.prober video fs).1)
              (some video) output))
          .done left := by
  refine ⟨(Media.probe h s.engine.prober video fs).2, ?_⟩
  unfold plan
  rw [Job.load_asking hdocument]

/-- Whenever a drawing comes to start its engine, a plan of the same job
for the same video and output shows the command with the very arguments
that the engine is started with, as its last line, and ends well. The two
may be run on different machines at different times, with any budget and
any report, as long as the document is the same and a prober gives the
same answer. The video has to be asked for the drawing, too, unless the
document has a duration or all its components have their times in
pairs. -/
theorem plan_shows_attempt {d : Document} {args : List String}
    (hdocument : Document.load fs path = .ok d)
    (hsame : Document.load fs' path = .ok d)
    (hanswer : probe = true →
      (Media.probe h' s.engine.prober video fs').1
        = (Media.probe h s.engine.prober video fs).1)
    (hsettled : probe = true ∨ Binary64.lt 0 d.duration = true
      ∨ ∀ c ∈ d.components, c.Paired)
    (hattempt : (render h s path video output timeout probe report
      fs).attempt = some args) :
    ∃ j left,
      (Job.load h' s.engine path (some video) fs').1 = .ok j
        ∧ args = plannedArguments s j (some video) output
        ∧ plan h' s path (some video) output fs'
          = .quiet (listing path j s.engine.engine args) .done left
        ∧ (listing path j s.engine.engine args).getLast?
          = some ("  " ++ s.engine.engine ++ " "
            ++ String.intercalate " " args) := by
  obtain ⟨j, hj, hargs⟩ := plannedArguments_of_attempt h s path video output
    timeout probe report fs hattempt
  obtain ⟨left, hplan⟩ := plan_of_document h' s path video output fs' hsame
  rw [Job.load_of_document hdocument] at hj
  obtain rfl := Except.ok.inj hj
  have hknown : ((if probe then some video else none).bind fun v =>
        (Media.probe h s.engine.prober v fs).1)
        = (Media.probe h' s.engine.prober video fs').1
      ∨ Binary64.lt 0 d.duration = true
      ∨ ∀ c ∈ d.components, c.Paired := by
    rcases hsettled with hprobe | hdocumented
    · left
      rw [hprobe, hanswer hprobe]
      rfl
    · exact .inr hdocumented
  have hshown := hargs.trans (plannedArguments_congr s output (by rfl)
    (Job.program_congr (Job.idOf path) hknown) (some video))
  refine ⟨_, left, Job.load_of_document hsame (some video), hshown, ?_,
    getLast?_listing ..⟩
  rw [hplan, hshown]
  rfl

-- ======================================================== a line in time

/-- A job with a line that is shown from the first second on. -/
def openLine : String :=
  "\x7b\"nodes\":[\x7b\"type\":\"line\",\"data\":"
    ++ "\x7b\"timestamps\":[1]\x7d\x7d]\x7d"

/-- The document of that job. -/
def openLineDocument : Document :=
  .ofFields fun name => Value.last? name
    [("nodes", .array [.object [("type", .string "line"),
      ("data", .object [("timestamps", .array [.ofNat 1])])]])]

/-- What a prober says of a video of eight seconds. -/
def eightSeconds : String :=
  "\x7b\"streams\":[\x7b\"width\":640,\"height\":360\x7d],"
    ++ "\"format\":\x7b\"duration\":\"8\"\x7d\x7d"

/-- Files with a video and that job among them. -/
def desk : FileSystem where
  working := []
  entries := [(["v.mp4"], .file [118] false),
    (["job.json"], .file (Utf8.encode openLine) false)]

/-- A machine on which every program ends well and gives this answer. -/
def answering (clock : Nat) : Host where
  clock := clock
  date := clock
  course := fun _ _ fs =>
    .ok ⟨some (3, .exited (some 0)), some 3, Utf8.encode eightSeconds, [],
      fun _ => fs⟩

/-- The settings when nothing is said. -/
def unset : Settings := .standard ⟨none, none, none⟩

/-- The command for the line, which is closed by the end of the video. -/
def closedLine : List String :=
  ["-y", "-hide_banner", "-loglevel", "error", "-nostdin", "-i", "v.mp4",
    "-filter_complex",
    "drawbox=x=0:y=-1:w=100:h=2:color=0xffffff@1:t=fill:enable="
      ++ "'between(t,1,8)'",
    "-c:v", "libx264", "-preset", "slow", "-crf", "18", "-c:a", "copy",
    "w.mp4"]

/-- A file that holds the line is read as its job. -/
theorem load_openLine {fs : FileSystem} {path : SystemString}
    (hcontents : fs.contents path = .ok (Utf8.encode openLine)) :
    Document.load fs path = .ok openLineDocument := by
  have hread : Json.read openLine
      = .ok (.object [("nodes", .array [.object [("type", .string "line"),
        ("data", .object [("timestamps", .array [.ofNat 1])])]])]) := by
    cbv
  exact Document.load_of_text (FileSystem.text_of_contents hcontents)
    (Document.ofText_of_read hread)

theorem load_desk :
    Document.load desk "job.json" = .ok openLineDocument :=
  load_openLine (by rfl)

theorem probe_answering (clock : Nat) :
    Media.probe (answering clock) "ffprobe" "v.mp4" desk
      = (some ⟨⟨640, 360⟩, 8⟩, desk) := by
  have hread : Media.Answer.record.ofText eightSeconds
      = .ok ⟨[⟨some 640, some 360⟩], some "8"⟩ := by
    cbv
  have hduration : Media.durationOf (some "8") = 8 := by decide +kernel
  have hknown : Media.ofText? eightSeconds = some ⟨⟨640, 360⟩, 8⟩ := by
    unfold Media.ofText?
    rw [hread]
    show some (⟨⟨640, 360⟩, Media.durationOf (some "8")⟩ : Media) = _
    rw [hduration]
  show ((Utf8.text? (Utf8.encode eightSeconds)).bind Media.ofText?, desk)
    = _
  rw [Utf8.text?_encode, Option.bind_some, hknown]

/-- A line that nothing closes is drawn to the end of the video, which has
to be asked for it, and the plan of a later day shows the command. -/
theorem plan_shows_attempt_closedLine :
    (render (answering 0) unset "job.json" "v.mp4" (some "w.mp4") (some 60)
        true none desk).attempt = some closedLine
      ∧ ∃ j left,
        plan (answering 86400000000000) unset "job.json" (some "v.mp4")
            (some "w.mp4") desk
          = .quiet (listing "job.json" j "ffmpeg" closedLine) .done left
        ∧ (listing "job.json" j "ffmpeg" closedLine).getLast?
          = some ("  ffmpeg " ++ String.intercalate " " closedLine) := by
  have hanswer : (Media.probe (answering 86400000000000) "ffprobe" "v.mp4" desk).1
      = (Media.probe (answering 0) "ffprobe" "v.mp4" desk).1 := by
    rw [probe_answering, probe_answering]
  have hload : Job.load (answering 0) unset.engine "job.json"
      (if true then some "v.mp4" else none) desk
      = (.ok (.ofDocument "job" openLineDocument
          (some ⟨⟨640, 360⟩, 8⟩)), desk) := by
    show Job.load (answering 0) unset.engine "job.json" (some "v.mp4") desk
      = _
    rw [Job.load_asking load_desk]
    show (Except.ok (Job.ofDocument "job" openLineDocument
      (Media.probe (answering 0) "ffprobe" "v.mp4" desk).1),
      (Media.probe (answering 0) "ffprobe" "v.mp4" desk).2) = _
    rw [probe_answering]
  have hattempt : (render (answering 0) unset "job.json" "v.mp4"
      (some "w.mp4") (some 60) true none desk).attempt
      = some closedLine := by
    rw [attempt_render _ _ _ _ _ _ _ _ _ hload]
    decide +kernel
  refine ⟨hattempt, ?_⟩
  obtain ⟨j, left, _, _, hplan, hlast⟩ := plan_shows_attempt (answering 0)
    (answering 86400000000000) unset "job.json" "v.mp4" (some "w.mp4") (some 60)
    true none desk desk load_desk load_desk (fun _ => hanswer) (.inl rfl)
    hattempt
  exact ⟨j, left, hplan, hlast⟩

end Console

end TimedOverlay
