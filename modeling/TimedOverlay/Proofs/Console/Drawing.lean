/-
What a request to draw comes to.

Settings are read and the log is opened before anything else. From then
on a drawing goes through its job, its video and its engine, and where
one of them fails the engine is not started and no place changes but that
of the report (`reply_of_blocked`). Opening the log is the one step that
precedes all of these: it fills places where nothing was, and what it has
put there is found by the steps behind it.

Whatever becomes of a job that could be had, its report tells it, and the
exit code is zero exactly if the video was drawn and its report could be
written (`drawing_tells`). Only text can be told: a report does not come
about where the job, the video or the output is named by something else.
-/
import TimedOverlay.Proofs.Console.Answers
import TimedOverlay.Proofs.Console.DryRun

namespace TimedOverlay.Console

-- ============================================================== drawings

section

variable (h : Host) (s : Settings) (path video : SystemString)
  (output : Option SystemString) (timeout : Option UInt64) (probe : Bool)
  (report : Option SystemString) (fs : FileSystem)

/-- The run of a drawing; there is none without a job. -/
def drawing? : Option Run :=
  match Job.load h s.engine path (if probe then some video else none) fs with
  | (.error _, _) => none
  | (.ok j, left) =>
    some (Export.render
      ⟨video, output.getD (s.outputFor j.id), j.components, j.duration⟩ h
      (engineOptions s timeout) left)

/-- A job that cannot be had ends a drawing before anything is done. -/
theorem render_of_document_error {d : DocumentError}
    (hdocument : Document.load fs path = .error d) :
    render h s path video output timeout probe report fs
        = .quiet ["Rendering job: " ++ path.shown] (jobFailure d) fs
      ∧ drawing? h s path video output timeout probe fs = none := by
  have hload (asked : Option SystemString) :
      Job.load h s.engine path asked fs = (.error d, fs) := by
    unfold Job.load
    rw [hdocument]
  unfold render drawing?
  simp only [hload, and_self]

/-- A document that can be read gives a job, whatever a prober says. -/
theorem exists_load {d : Document} (hdocument : Document.load fs path = .ok d)
    (asked : Option SystemString) :
    ∃ j left, Job.load h s.engine path asked fs = (.ok j, left) := by
  unfold Job.load
  rw [hdocument]
  cases asked with
  | none => exact ⟨_, _, rfl⟩
  | some v => exact ⟨_, _, rfl⟩

/-- A job that can be had is drawn. -/
theorem drawing?_of_document {d : Document}
    (hdocument : Document.load fs path = .ok d) :
    ∃ run, drawing? h s path video output timeout probe fs = some run := by
  obtain ⟨j, left, hload⟩ := exists_load h s path fs hdocument
    (if probe then some video else none)
  unfold drawing?
  rw [hload]
  exact ⟨_, rfl⟩

/-- A drawing that has a run is answered with what became of the run: its
deadline was beyond the clock, or its report could not be written, or
all that there is to tell has been told. -/
theorem answers_of_drawing? {run : Run}
    (hrun : drawing? h s path video output timeout probe fs = some run) :
    Answers (fun outcome => ⟨path, video, outcome, h.date, run.elapsed⟩)
      report run
      (render h s path video output timeout probe report fs) := by
  unfold drawing? at hrun
  unfold render
  split at hrun
  next => cases hrun
  next j left hload =>
    obtain rfl := Option.some.inj hrun
    simp only [hload]
    split
    next hresult => exact .aborted hresult rfl rfl rfl
    next outcome hresult =>
      split
      next hwrite => exact .unreported outcome _ hresult hwrite rfl rfl rfl
      next left' hwrite =>
        refine .told outcome hresult hwrite ?_ rfl
        cases outcome with
        | success path => rfl
        | failure f => rfl

variable {h s path video output timeout probe report fs}

/-- A prober that writes nothing leaves the files of a job as they
were. -/
theorem files_of_load (path : SystemString) (hprobe : probe = true →
      (Media.probe h s.engine.prober video fs).2 = fs) :
    (Job.load h s.engine path (if probe then some video else none) fs).2
      = fs := by
  unfold Job.load
  cases Document.load fs path with
  | error d => rfl
  | ok d =>
      cases probe with
      | false => rfl
      | true => exact hprobe rfl

/-- A video that is no file ends a run before its engine is started. -/
theorem drawing?_of_noVideo {d : Document}
    (hdocument : Document.load fs path = .ok d)
    (hvideo : fs.isFile video = false)
    (hprobe : probe = true →
      (Media.probe h s.engine.prober video fs).2 = fs) :
    drawing? h s path video output timeout probe fs
      = some (.unstarted (.noSource video) fs) := by
  obtain ⟨j, left, hload⟩ := exists_load h s path fs hdocument
    (if probe then some video else none)
  have hfiles := files_of_load path hprobe
  rw [hload] at hfiles
  obtain rfl : left = fs := hfiles
  unfold drawing?
  rw [hload]
  exact congrArg some (Export.render_of_noSource hvideo)

/-- Without a document there is no job; otherwise it is the video that is
missing. -/
theorem document_or_video
    (hblocked : (∃ d, Document.load fs path = .error d)
      ∨ fs.isFile video = false) :
    (∃ d, Document.load fs path = .error d)
      ∨ (∃ d, Document.load fs path = .ok d) ∧ fs.isFile video = false := by
  cases hdocument : Document.load fs path with
  | error d => exact .inl ⟨d, rfl⟩
  | ok d =>
      right
      refine ⟨⟨d, rfl⟩, ?_⟩
      rcases hblocked with ⟨d', hd'⟩ | hvideo
      · rw [hdocument] at hd'
        cases hd'
      · exact hvideo

/-- Without a job or a video nothing is attempted, the exit code is not
zero, and no place changes but that of the report. -/
theorem render_of_blocked (output : Option SystemString)
    (timeout : Option UInt64) (report : Option SystemString)
    (hblocked : (∃ d, Document.load fs path = .error d)
      ∨ fs.isFile video = false)
    (hprobe : probe = true →
      (Media.probe h s.engine.prober video fs).2 = fs) :
    (render h s path video output timeout probe report fs).attempt = none
      ∧ (render h s path video output timeout probe report fs).code ≠ 0
      ∧ (render h s path video output timeout probe report fs).files.working
        = fs.working
      ∧ ∀ l, (render h s path video output timeout probe report fs).files.get?
            l = fs.get? l
          ∨ ∃ p, report = some p ∧ fs.locateFile p = .ok l := by
  rcases document_or_video hblocked with
    ⟨d, hdocument⟩ | ⟨⟨d, hdocument⟩, hvideo⟩
  · rw [(render_of_document_error h s path video output timeout probe report
      fs hdocument).1]
    exact ⟨rfl, nofun, rfl, fun _ => .inl rfl⟩
  · have hanswer := answers_of_drawing? h s path video output timeout probe
      report fs (drawing?_of_noVideo hdocument hvideo hprobe)
    refine ⟨hanswer.attempt_eq, ?_, hanswer.files_eq⟩
    intro hzero
    obtain ⟨_, hsuccess, _⟩ := hanswer.code_eq_zero_iff.1 hzero
    cases hsuccess

/-- What the programs of a host do makes no difference to a drawing that
has no job or no video, as far as its prober says the same. -/
theorem render_congr_of_blocked {h' : Host}
    (hblocked : (∃ d, Document.load fs path = .error d)
      ∨ fs.isFile video = false)
    (hprobe : probe = true →
      (Media.probe h s.engine.prober video fs).2 = fs)
    (hdate : h'.date = h.date)
    (hsame : probe = true → Media.probe h' s.engine.prober video fs
      = Media.probe h s.engine.prober video fs) :
    render h' s path video output timeout probe report fs
      = render h s path video output timeout probe report fs := by
  rcases document_or_video hblocked with
    ⟨d, hdocument⟩ | ⟨⟨d, hdocument⟩, hvideo⟩
  · rw [(render_of_document_error h' s path video output timeout probe report
        fs hdocument).1,
      (render_of_document_error h s path video output timeout probe report
        fs hdocument).1]
  · have hload : Job.load h' s.engine path
          (if probe then some video else none) fs
        = Job.load h s.engine path (if probe then some video else none)
          fs := by
      unfold Job.load
      cases probe with
      | false => rfl
      | true =>
          simp only [if_true]
          rw [hsame rfl]
    obtain ⟨j, left, hjob⟩ := exists_load h s path fs hdocument
      (if probe then some video else none)
    have hfiles := files_of_load path hprobe
    rw [hjob] at hfiles
    obtain rfl : left = fs := hfiles
    have hrun (k : Host) : Export.render
        ⟨video, output.getD (s.outputFor j.id), j.components, j.duration⟩ k
        (engineOptions s timeout) left
        = .unstarted (.noSource video) left :=
      Export.render_of_noSource hvideo
    unfold render
    simp only [hload, hjob, hdate]
    rw [hrun h', hrun h]

end

-- ============================================================== requests

/-- The settings do not let a request begin, its job cannot be had, or its
video is no file. The last two are judged as the log has been opened. -/
inductive Blocked (e : Environment) (r : Request) (job video : SystemString)
    (fs : FileSystem) : Prop where
  | settings (cause : SettingsError) (h : r.settings e fs = .error cause)
  | job (s : Settings) (d : DocumentError) (h : r.settings e fs = .ok s)
      (hjob : Document.load (s.log.openFile fs) job = .error d)
  | video (s : Settings) (h : r.settings e fs = .ok s)
      (hvideo : (s.log.openFile fs).isFile video = false)

/-- The places that a request may change without its engine: those on the
way to its log, as far as nothing is there, that of its log and that of
its report. -/
inductive Touches (e : Environment) (r : Request) (report : Option SystemString)
    (fs : FileSystem) (l : Location) : Prop where
  | way (s : Settings) (h : r.settings e fs = .ok s)
      (hnone : fs.get? l = none) (hway : s.log.OnWay fs l)
  | log (s : Settings) (h : r.settings e fs = .ok s)
      (hplace : s.log.IsPlace fs l)
  | report (s : Settings) (p : SystemString) (h : r.settings e fs = .ok s)
      (hp : report = some p)
      (hplace : (s.log.openFile fs).locateFile p = .ok l)

/-- The run of a request to draw; there is none without settings. -/
def Request.drawing? (h : Host) (e : Environment) (r : Request)
    (fs : FileSystem) : Option Run :=
  match r.settings e fs, r.command with
  | .ok s, .render job video output timeout probe _ =>
    Console.drawing? h s job video output timeout probe (s.log.openFile fs)
  | _, _ => none

/-- A prober does not change the files of a request. -/
def ProbesOnly (h : Host) (e : Environment) (r : Request) (video : SystemString)
    (fs : FileSystem) : Prop :=
  ∀ s, r.settings e fs = .ok s →
    (Media.probe h s.engine.prober video (s.log.openFile fs)).2
      = s.log.openFile fs

/-- The probers of two hosts say the same of the video of a request. -/
def AskedAlike (h h' : Host) (e : Environment) (r : Request)
    (video : SystemString) (fs : FileSystem) : Prop :=
  ∀ s, r.settings e fs = .ok s →
    Media.probe h' s.engine.prober video (s.log.openFile fs)
      = Media.probe h s.engine.prober video (s.log.openFile fs)

section

variable {h : Host} {e : Environment} {r : Request} {job video : SystemString}
  {output : Option SystemString} {timeout : Option UInt64} {probe : Bool}
  {report : Option SystemString} {fs : FileSystem}

theorem Request.reply_of_settings_error {cause : SettingsError}
    (hs : r.settings e fs = .error cause) :
    r.reply h e fs = .quiet [] (.failed cause.message) fs := by
  unfold reply
  rw [hs]

theorem Request.reply_of_settings {s : Settings}
    (hs : r.settings e fs = .ok s)
    (hcommand : r.command
      = .render job video output timeout probe report) :
    r.reply h e fs
      = render h s job video output timeout probe report
        (s.log.openFile fs) := by
  unfold reply
  rw [hs, hcommand]

theorem Request.drawing?_of_settings {s : Settings}
    (hs : r.settings e fs = .ok s)
    (hcommand : r.command
      = .render job video output timeout probe report) :
    r.drawing? h e fs
      = Console.drawing? h s job video output timeout probe
        (s.log.openFile fs) := by
  unfold drawing?
  rw [hs, hcommand]

/-- What blocks a request are its settings, or its job or video once there
are settings. -/
theorem Blocked.of_settings {s : Settings} (hs : r.settings e fs = .ok s)
    (hblocked : Blocked e r job video fs) :
    (∃ d, Document.load (s.log.openFile fs) job = .error d)
      ∨ (s.log.openFile fs).isFile video = false := by
  cases hblocked with
  | settings cause hcause =>
      rw [hs] at hcause
      cases hcause
  | job s' d hs' hjob =>
      rw [hs] at hs'
      cases hs'
      exact .inl ⟨d, hjob⟩
  | video s' hs' hvideo =>
      rw [hs] at hs'
      cases hs'
      exact .inr hvideo

/-- A blocked request does not come to its engine, fails, and changes no
place but those of its log and its report. -/
theorem reply_of_blocked
    (hcommand : r.command
      = .render job video output timeout probe report)
    (hprobe : probe = true → ProbesOnly h e r video fs)
    (hblocked : Blocked e r job video fs) :
    (r.reply h e fs).attempt = none
      ∧ (r.reply h e fs).code ≠ 0
      ∧ (r.reply h e fs).files.working = fs.working
      ∧ ∀ l, (r.reply h e fs).files.get? l = fs.get? l
        ∨ Touches e r report fs l := by
  cases hs : r.settings e fs with
  | error cause =>
      rw [Request.reply_of_settings_error hs]
      exact ⟨rfl, nofun, rfl, fun _ => .inl rfl⟩
  | ok s =>
      rw [Request.reply_of_settings hs hcommand]
      obtain ⟨hattempt, hcode, hworking, hplaces⟩ :=
        render_of_blocked output timeout report (hblocked.of_settings hs)
          fun hasked => hprobe hasked s hs
      refine ⟨hattempt, hcode, hworking.trans (s.log.working_openFile fs), ?_⟩
      intro l
      rcases hplaces l with hsame | ⟨p, hp, hplace⟩
      · rw [hsame]
        rcases s.log.filled_of_openFile fs l with
          hopened | ⟨hnone, hway | hlog⟩
        · exact .inl hopened
        · exact .inr (.way s hs hnone hway)
        · exact .inr (.log s hs hlog)
      · exact .inr (.report s p hs hp hplace)

/-- A blocked request is answered alike on every host whose prober says
the same on the same day. -/
theorem reply_congr_of_blocked {h' : Host}
    (hcommand : r.command
      = .render job video output timeout probe report)
    (hprobe : probe = true → ProbesOnly h e r video fs)
    (hblocked : Blocked e r job video fs) (hdate : h'.date = h.date)
    (hsame : probe = true → AskedAlike h h' e r video fs) :
    r.reply h' e fs = r.reply h e fs := by
  cases hs : r.settings e fs with
  | error cause =>
      rw [Request.reply_of_settings_error hs,
        Request.reply_of_settings_error hs]
  | ok s =>
      rw [Request.reply_of_settings hs hcommand,
        Request.reply_of_settings hs hcommand]
      exact render_congr_of_blocked (hblocked.of_settings hs)
        (fun hasked => hprobe hasked s hs) hdate
        fun hasked => hsame hasked s hs

/-- The exit code of a request is zero exactly if it has a run, the run
draws the video, and the report can be written down and put in its place
behind it. -/
theorem code_reply_eq_zero_iff
    (hcommand : r.command
      = .render job video output timeout probe report) :
    (r.reply h e fs).code = 0
      ↔ ∃ run path, r.drawing? h e fs = some run
        ∧ run.result = .ok (.success path)
        ∧ ∀ p, report = some p →
          Report.Tellable ⟨job, video, .success path, h.date, run.elapsed⟩
            ∧ run.files.Writable p := by
  cases hs : r.settings e fs with
  | error cause =>
      rw [Request.reply_of_settings_error hs]
      constructor
      · intro hzero
        cases hzero
      · intro ⟨run, path, hrun, _⟩
        unfold Request.drawing? at hrun
        rw [hs] at hrun
        cases hrun
  | ok s =>
      rw [Request.reply_of_settings hs hcommand,
        Request.drawing?_of_settings hs hcommand]
      cases hdocument : Document.load (s.log.openFile fs) job with
      | error d =>
          obtain ⟨hreply, hnone⟩ := render_of_document_error h s job video
            output timeout probe report _ hdocument
          rw [hreply, hnone]
          constructor
          · intro hzero
            cases hzero
          · intro ⟨run, path, hrun, _⟩
            cases hrun
      | ok d =>
          obtain ⟨run, hrun⟩ := drawing?_of_document h s job video output
            timeout probe _ hdocument
          have hanswer := answers_of_drawing? h s job video output timeout
            probe report _ hrun
          rw [hanswer.code_eq_zero_iff, hrun]
          constructor
          · intro ⟨path, hsuccess, hwritten⟩
            exact ⟨run, path, rfl, hsuccess, hwritten⟩
          · intro ⟨run', path, hrun', hsuccess, hwritten⟩
            cases hrun'
            exact ⟨path, hsuccess, hwritten⟩

/-- What becomes of a report that is asked for at `p`: it is found there if
it can be told and written, and nothing is done about one that cannot be
told. -/
def Reported (rep : Report) (p : SystemString) (left : FileSystem)
    (reply : Reply) : Prop :=
  (rep.Tellable → left.Writable p →
      ∃ v, rep.toValue? = some v
        ∧ (reply.files.at? p = some .device
          ∨ ∃ executable, reply.files.at? p
            = some (.file (Utf8.encode v.text) executable)))
    ∧ (¬ rep.Tellable → reply.code = 1 ∧ reply.files = left)

/-- A job that can be had has a run, and whatever comes of it, the report
is found at its path if it could be written there. -/
theorem reported_of_document {s : Settings} {d : Document}
    (hcommand : r.command
      = .render job video output timeout probe report)
    (hs : r.settings e fs = .ok s)
    (hdocument : Document.load (s.log.openFile fs) job = .ok d) :
    ∃ run, r.drawing? h e fs = some run
      ∧ ∀ outcome p, run.result = .ok outcome → report = some p →
        Reported ⟨job, video, outcome, h.date, run.elapsed⟩ p run.files
          (r.reply h e fs) := by
  obtain ⟨run, hrun⟩ := drawing?_of_document h s job video output timeout
    probe _ hdocument
  refine ⟨run, (Request.drawing?_of_settings hs hcommand).trans hrun, ?_⟩
  intro outcome p hresult hp
  rw [Request.reply_of_settings hs hcommand]
  have hanswer := answers_of_drawing? h s job video output timeout probe
    report _ hrun
  exact ⟨hanswer.reported hresult hp, hanswer.unwritten hresult hp⟩

end

theorem reply_of_arguments {arguments : List SystemString} {r : Request}
    (hrequest : Request.ofArguments arguments = .ok r) (h : Host)
    (e : Environment) (fs : FileSystem) :
    reply h e arguments fs = r.reply h e fs := by
  unfold reply
  rw [hrequest]

/-- A request to draw without settings, or without a job or a video once
its log has been opened, fails before its engine is started: the answer
is the same whatever the engine does, and, with a prober that writes
nothing, no place changes but that of the log, those on the way to it
where nothing was, and that of the report. Over all requests to draw, the
exit code is zero exactly if the video was drawn and a report that was
asked for names nothing but text and could be written. And once there is a
job, the report that was asked for is written whatever comes of it, if
that can be; one that names something that is no text is not written, and
then the exit code is one. -/
theorem drawing_tells (h : Host) (e : Environment) (fs : FileSystem)
    {arguments : List SystemString} {r : Request} {job video : SystemString}
    {output : Option SystemString} {timeout : Option UInt64} {probe : Bool}
    {report : Option SystemString}
    (hrequest : Request.ofArguments arguments = .ok r)
    (hcommand : r.command
      = .render job video output timeout probe report) :
    ((probe = true → ProbesOnly h e r video fs) →
      Blocked e r job video fs →
        (reply h e arguments fs).attempt = none
          ∧ (reply h e arguments fs).code ≠ 0
          ∧ (∀ h' : Host, h'.date = h.date →
            (probe = true → AskedAlike h h' e r video fs) →
              reply h' e arguments fs = reply h e arguments fs)
          ∧ (reply h e arguments fs).files.working = fs.working
          ∧ ∀ l, (reply h e arguments fs).files.get? l = fs.get? l
            ∨ Touches e r report fs l)
      ∧ ((reply h e arguments fs).code = 0
        ↔ ∃ run path, r.drawing? h e fs = some run
          ∧ run.result = .ok (.success path)
          ∧ ∀ p, report = some p →
            Report.Tellable ⟨job, video, .success path, h.date, run.elapsed⟩
              ∧ run.files.Writable p)
      ∧ ∀ s d, r.settings e fs = .ok s →
        Document.load (s.log.openFile fs) job = .ok d →
          ∃ run, r.drawing? h e fs = some run
            ∧ ∀ outcome p, run.result = .ok outcome → report = some p →
              Reported ⟨job, video, outcome, h.date, run.elapsed⟩ p
                run.files (reply h e arguments fs) := by
  simp only [reply_of_arguments hrequest]
  refine ⟨?_, code_reply_eq_zero_iff hcommand, ?_⟩
  · intro hprobe hblocked
    obtain ⟨hattempt, hcode, hworking, hplaces⟩ :=
      reply_of_blocked hcommand hprobe hblocked
    refine ⟨hattempt, hcode, ?_, hworking, hplaces⟩
    intro h' hdate hsame
    exact reply_congr_of_blocked hcommand hprobe hblocked hdate hsame
  · intro s d hs hdocument
    exact reported_of_document hcommand hs hdocument

-- ========================================================= two such runs

/-- The variables of a user who has none. -/
def bare : Environment := ⟨none, none, none⟩

/-- A drawing of a video that is missing, into a directory that is. -/
def missingVideo : List SystemString :=
  ["render", "job.json", "--video", "x.mp4", "-o", "outs/w.mp4", "--report",
    "r.json"]

/-- A video that is missing fails a drawing. The directory of the output
is not made, and the report is there. -/
theorem drawing_tells_missing :
    (reply (answering 0) bare missingVideo desk).attempt = none
      ∧ (reply (answering 0) bare missingVideo desk).code ≠ 0
      ∧ (reply (answering 0) bare missingVideo desk).files.get? ["outs"]
        = none
      ∧ (reply (answering 0) bare missingVideo desk).files.at? "r.json"
        ≠ none := by
  have hrequest : Request.ofArguments missingVideo
      = .ok ⟨none, false, .render "job.json" "x.mp4" (some "outs/w.mp4") none
          false (some "r.json")⟩ := by
    rfl
  have hsettings : Request.settings bare
      ⟨none, false, .render "job.json" "x.mp4" (some "outs/w.mp4") none false
        (some "r.json")⟩ desk = .ok unset := by
    rfl
  have hplace : (unset.log.openFile desk).locateFile "r.json"
      = .ok ["r.json"] := by
    rfl
  obtain ⟨hblocked, -, hreported⟩ :=
    drawing_tells (answering 0) bare desk hrequest rfl
  obtain ⟨hattempt, hcode, -, -, hplaces⟩ :=
    hblocked nofun (.video unset hsettings (by rfl))
  refine ⟨hattempt, hcode, ?_, ?_⟩
  · rcases hplaces ["outs"] with hsame | htouches
    · exact hsame
    · cases htouches with
      | way s hs hnone hway =>
          rw [hsettings] at hs
          cases hs
          obtain ⟨path, dir, hfile, -⟩ := hway
          cases hfile
      | log s hs hlog =>
          rw [hsettings] at hs
          cases hs
          obtain ⟨path, hfile, -⟩ := hlog
          cases hfile
      | report s p hs hp hreport =>
          rw [hsettings] at hs
          cases hs
          cases hp
          rw [hplace] at hreport
          exact absurd (Except.ok.inj hreport) (by decide)
  · obtain ⟨run, hrun, hthere⟩ :=
      hreported unset openLineDocument hsettings load_desk
    have hunstarted : drawing? (answering 0) unset "job.json" "x.mp4"
        (some "outs/w.mp4") none false (unset.log.openFile desk)
        = some (.unstarted (.noSource "x.mp4") desk) :=
      drawing?_of_noVideo load_desk (by rfl) nofun
    rw [Request.drawing?_of_settings hsettings rfl, hunstarted] at hrun
    obtain rfl := Option.some.inj hrun
    obtain ⟨v, -, hdevice | ⟨executable, hfile⟩⟩ :=
      (hthere _ "r.json" rfl rfl).1 ⟨rfl, rfl, nofun⟩
        ⟨_, hplace, by decide⟩
    · rw [hdevice]
      nofun
    · rw [hfile]
      nofun

/-- Settings with a log of its own directory. -/
def logging : String :=
  "\x7b\"logging\":\x7b\"file\":\"outs/b.log\"\x7d\x7d"

/-- Files with those settings and the job of a line, but no video. -/
def shelf : FileSystem where
  working := []
  entries := [(["c.json"], .file (Utf8.encode logging) false),
    (["job.json"], .file (Utf8.encode openLine) false)]

/-- The settings that log into the directory of the output. -/
def logged : Settings :=
  ⟨bare.outputDirectory, .standard, ⟨"info", false, some "outs/b.log"⟩⟩

theorem settings_shelf (command : Command) :
    Request.settings bare ⟨some "c.json", false, command⟩ shelf
      = .ok logged := by
  have hscan : Json.Text.scan logging
      = ⟨.object [(.plain "logging",
          .object [(.plain "file", .string (.plain "outs/b.log"))] none)]
          none, false⟩ := by
    cbv
  have hread : (Settings.record bare).ofText logging = .ok logged := by
    unfold Json.Record.ofText Json.readText
    rw [hscan]
    rfl
  have htext : shelf.text "c.json" = .ok logging := by
    have hcontents : shelf.contents "c.json" = .ok (Utf8.encode logging) := by
      rfl
    exact FileSystem.text_of_contents hcontents
  show Settings.load bare shelf "c.json" = .ok logged
  unfold Settings.load
  rw [htext]
  dsimp only
  rw [hread]

/-- Where every program ends well, an export is drawn if its source is a
file, there is room for its output, and its engine can be started. -/
theorem render_answering {x : Export} {o : EngineOptions} {clock : Nat}
    {fs left : FileSystem} (hsource : fs.isFile x.source = true)
    (hparent : fs.makeParent x.output = (left, none))
    (hclock : (clock + o.budget) / 10 ^ 9 < clockLimit)
    (hbudget : 3 ≤ o.budget)
    (hnul : (o.engine :: o.arguments x.source
      (Program.compile x.duration x.components) x.output).any hasNul
        = false) :
    x.render (answering clock) o fs
      = ⟨.ok (.success x.output),
        some (o.arguments x.source
          (Program.compile x.duration x.components) x.output), 3, left⟩ := by
  have hstart : (answering clock).start o.engine
      ((o.arguments x.source (Program.compile x.duration x.components)
        x.output).map .text) left
      = .ok ⟨some (3, .exited (some 0)), some 3, Utf8.encode eightSeconds, [],
        fun _ => left⟩ := by
    unfold Host.start
    rw [← List.map_cons, SystemString.any_hasNul_text, hnul]
    rfl
  have htime : Run.inTime? o.budget (some 3) = some 3 :=
    Option.filter_eq_some_iff.2 ⟨rfl, decide_eq_true hbudget⟩
  have hlate : ¬ clockLimit ≤ ((answering clock).clock + o.budget) / 10 ^ 9 :=
    Nat.not_le.2 hclock
  rw [Export.render_of_source hsource]
  unfold Program.render
  rw [hparent]
  dsimp only
  rw [if_neg hlate, hstart]
  simp only [Run.settle, if_neg (Nat.not_lt.2 hbudget), htime, if_true,
    Nat.max_self]

/-- The line, drawn over a video. -/
def lineOver (video output : SystemString) : Export :=
  let j := Job.ofDocument "job" openLineDocument none
  ⟨video, output, j.components, j.duration⟩

/-- Where every program ends well, the job of the line is drawn over a
video that is there, if there is room for the output. -/
theorem exists_drawing?_line (s : Settings) (fs : FileSystem)
    (video output : SystemString) (hengine : s.engine = .standard)
    (hdocument : Document.load fs "job.json" = .ok openLineDocument)
    (hsource : fs.isFile video = true)
    (hparent : fs.makeParent output = (fs, none))
    (hnul : ("ffmpeg" :: (EngineOptions.ofSettings .standard).arguments video
      (Program.compile (lineOver video output).duration
        (lineOver video output).components) output).any hasNul = false) :
    ∃ args, drawing? (answering 0) s "job.json" video (some output) none
        false fs
      = some ⟨.ok (.success output), some args, 3, fs⟩ := by
  have hload : Job.load (answering 0) s.engine "job.json"
      (if false then some video else none) fs
      = (.ok (.ofDocument "job" openLineDocument none), fs) := by
    unfold Job.load
    rw [hdocument]
    rfl
  have hoptions : engineOptions s none = .ofSettings .standard := by
    unfold engineOptions
    rw [hengine]
  refine ⟨(EngineOptions.ofSettings .standard).arguments video
    (Program.compile (lineOver video output).duration
      (lineOver video output).components) output, ?_⟩
  unfold drawing?
  rw [hload, hoptions]
  have hrun : (lineOver video output).render (answering 0)
      (.ofSettings .standard) fs = _ :=
    render_answering hsource hparent (by decide) (by decide) hnul
  exact congrArg some hrun

/-- A name that is no text. -/
def unspelt : SystemString := .bytes [255] (by decide +kernel)

/-- A log is opened before the job is looked for and before the video is.
So a job that is missing does not keep the directory of the output from
being made, if the log goes there, and a video that is no file is one by
the time it is looked for, if it is the file of the log. And a video that
was drawn under a name that is no text cannot be told of: the report is
not written, although it could be at its path, and the exit code is
one. -/
theorem early_log_and_untold_report :
    (Document.load shelf "none.json" = .error (.missing "none.json")
        ∧ shelf.get? ["outs"] = none
        ∧ (reply (answering 0) bare
            ["render", "none.json", "--video", "v.mp4", "-o", "outs/w.mp4",
              "--config", "c.json"] shelf).files.get? ["outs"]
          = some .directory)
      ∧ (shelf.isFile "outs/b.log" = false
        ∧ (reply (answering 0) bare
            ["render", "job.json", "--video", "outs/b.log", "-o",
              "outs/w.mp4", "--config", "c.json"] shelf).attempt ≠ none
        ∧ (reply (answering 0) bare
            ["render", "job.json", "--video", "outs/b.log", "-o",
              "outs/w.mp4", "--config", "c.json"] shelf).code = 0)
      ∧ ∃ run,
        Request.drawing? (answering 0) bare
            ⟨none, false, .render "job.json" "v.mp4" (some unspelt) none false
              (some "r.json")⟩ desk = some run
          ∧ run.result = .ok (.success unspelt)
          ∧ run.files.Writable "r.json"
          ∧ (reply (answering 0) bare
              ["render", "job.json", "--video", "v.mp4", "-o", unspelt,
                "--report", "r.json"] desk).code = 1
          ∧ (reply (answering 0) bare
              ["render", "job.json", "--video", "v.mp4", "-o", unspelt,
                "--report", "r.json"] desk).files.at? "r.json" = none := by
  refine ⟨⟨by rfl, by rfl, ?_⟩, ⟨by rfl, ?_⟩, ?_⟩
  · have hrequest : Request.ofArguments
        ["render", "none.json", "--video", "v.mp4", "-o", "outs/w.mp4",
          "--config", "c.json"]
        = .ok ⟨some "c.json", false, .render "none.json" "v.mp4"
            (some "outs/w.mp4") none false none⟩ := by
      rfl
    have hmissing : Document.load (logged.log.openFile shelf) "none.json"
        = .error (.missing "none.json") := by
      rfl
    rw [reply_of_arguments hrequest,
      Request.reply_of_settings (settings_shelf _) rfl,
      (render_of_document_error _ _ _ _ _ _ _ _ _ hmissing).1]
    rfl
  · have hrequest : Request.ofArguments
        ["render", "job.json", "--video", "outs/b.log", "-o", "outs/w.mp4",
          "--config", "c.json"]
        = .ok ⟨some "c.json", false, .render "job.json" "outs/b.log"
            (some "outs/w.mp4") none false none⟩ := by
      rfl
    -- The directory of the output is there already: it is that of the log.
    obtain ⟨args, hdrawing⟩ := exists_drawing?_line logged
      (logged.log.openFile shelf) "outs/b.log" "outs/w.mp4" rfl
      (load_openLine (by rfl)) (by rfl) (by rfl) (by decide +kernel)
    have hanswer := answers_of_drawing? _ _ _ _ _ _ _ none _ hdrawing
    rw [reply_of_arguments hrequest,
      Request.reply_of_settings (settings_shelf _) rfl]
    constructor
    · rw [hanswer.attempt_eq]
      nofun
    · apply hanswer.code_eq_zero_iff.2
      exact ⟨_, rfl, nofun⟩
  · have hrequest : Request.ofArguments
        ["render", "job.json", "--video", "v.mp4", "-o", unspelt, "--report",
          "r.json"]
        = .ok ⟨none, false, .render "job.json" "v.mp4" (some unspelt) none
            false (some "r.json")⟩ := by
      rfl
    have hsettings : Request.settings bare
        ⟨none, false, .render "job.json" "v.mp4" (some unspelt) none false
          (some "r.json")⟩ desk = .ok unset := by
      rfl
    have hplace : desk.Writable "r.json" := ⟨["r.json"], by rfl, by decide⟩
    obtain ⟨args, hdrawing⟩ := exists_drawing?_line unset desk "v.mp4"
      unspelt rfl load_desk (by rfl) (by decide +kernel) (by decide +kernel)
    have huntold : ¬ Report.Tellable
        ⟨"job.json", "v.mp4", .success unspelt, 0, 3⟩ := fun htellable =>
      absurd (htellable.2.2 unspelt rfl) nofun
    have hanswer := answers_of_drawing? _ _ _ _ _ _ _ (some "r.json") _
      hdrawing
    obtain ⟨hcode, hfiles⟩ := hanswer.unwritten rfl rfl huntold
    refine ⟨_, (Request.drawing?_of_settings hsettings rfl).trans hdrawing,
      rfl, hplace, ?_, ?_⟩
    · rw [reply_of_arguments hrequest,
        Request.reply_of_settings hsettings rfl]
      exact hcode
    · rw [reply_of_arguments hrequest,
        Request.reply_of_settings hsettings rfl]
      exact (congrArg (FileSystem.at? · "r.json") hfiles).trans (by rfl)

end TimedOverlay.Console
