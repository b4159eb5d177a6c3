/-
Answering a command line.

There are three commands. `plan` tells what a job comes to and which
command would draw it, `render` draws it, `check` tells whether the
programs that are needed can be run. Settings are read first and the file
of the log is opened; only then does the command begin.
-/
import TimedOverlay.Console.Listing
import TimedOverlay.Console.Report
import TimedOverlay.Console.Request
import TimedOverlay.Engine.Run
import TimedOverlay.Settings.Record

namespace TimedOverlay.Console

-- =============================================================== replies

/-- How a command ends. -/
inductive Conclusion where
  | done
  | failed (message : String)
  | misused
  | aborted
deriving DecidableEq

/-- The answer to a command line: what is said, how it ends, and the files
afterwards. -/
structure Reply where
  lines : List String
  conclusion : Conclusion
  /-- The arguments with which the engine was to be started, if it came
  to that. -/
  attempt : Option (List String)
  files : FileSystem

namespace Reply

variable (r : Reply)

/-- The exit code. -/
def code : Nat :=
  match r.conclusion with
  | .done => 0
  | .failed _ => 1
  | .misused => 2
  | .aborted => 101

/-- Lines as text. -/
def joined (lines : List String) : String :=
  String.join (lines.map (· ++ "\n"))

/-- What goes to the output. -/
def output : String := joined r.lines

/-- How the program is to be called. -/
def usage : List String :=
  ["Burn timed overlays into videos with ffmpeg", "",
    "Usage: burnin [-v] [--config CONFIG] COMMAND", "", "Commands:",
    "  render JOB --video VIDEO [-o OUTPUT] [--timeout SECONDS] [--probe]"
      ++ " [--report REPORT]",
    "  plan JOB [--video VIDEO] [-o OUTPUT]", "  check"]

/-- What goes to the error stream. -/
def errors : String :=
  match r.conclusion with
  | .done => ""
  | .failed message => joined ["Error: " ++ message]
  | .misused => joined usage
  | .aborted => joined ["the deadline is beyond what the clock can show"]

/-- A command that ends without the engine. -/
def quiet (lines : List String) (c : Conclusion) (fs : FileSystem) : Reply :=
  ⟨lines, c, none, fs⟩

end Reply

-- ============================================================== commands

variable (h : Host) (e : Environment) (s : Settings)

/-- The name that stands for a video that is not given. -/
def unnamedVideo : String := "<video>"

/-- The arguments of the command that a plan shows. -/
def plannedArguments (j : Job) (video output : Option SystemString) :
    List String :=
  (EngineOptions.ofSettings s.engine).arguments (video.getD unnamedVideo)
    (Program.compile j.duration j.components)
    (output.getD (s.outputFor j.id))

/-- The message of a job that cannot be had. -/
def jobFailure (d : DocumentError) : Conclusion :=
  .failed ("Failed to load job: " ++ d.message)

/-- What a job comes to. Nothing is drawn; the video, if one is given, is
asked for what the document leaves open. -/
def plan (path : SystemString) (video output : Option SystemString)
    (fs : FileSystem) : Reply :=
  match Job.load h s.engine path video fs with
  | (.error d, fs) => .quiet [] (jobFailure d) fs
  | (.ok j, fs) =>
    .quiet (listing path j s.engine.engine (plannedArguments s j video output))
      .done fs

/-- The options of the engine, with another budget if one is given. -/
def engineOptions (timeout : Option UInt64) : EngineOptions :=
  let o := EngineOptions.ofSettings s.engine
  match timeout with
  | none => o
  | some seconds => { o with budget := EngineOptions.ofSeconds seconds }

/-- What is said before a job is drawn. -/
def announcement (path video output : SystemString) (j : Job) :
    List String :=
  ["Rendering job: " ++ path.shown, "  Source: " ++ video.shown,
    "  Output: " ++ output.shown,
    "  Components: " ++ toString j.components.length, frameLine j]

/-- What is said, and what comes of it, after an attempt. -/
def verdict (elapsed : Nat) : Outcome → List String × Conclusion
  | .success path =>
    (["Render complete in " ++ (secondsOf elapsed).fixed 1 ++ "s: "
        ++ path.shown],
      .done)
  | .failure f =>
    (["Render failed after " ++ (secondsOf elapsed).fixed 1 ++ "s"],
      .failed ("Render failed: "
        ++ String.ofList (Text.trim f.reason.toList)))

/-- Why a report is not in its place. -/
inductive ReportError where
  | notText
  | unwritable (path : SystemString) (fault : SystemFault)
deriving DecidableEq

/-- The lack of a report in words. -/
def ReportError.message : ReportError → String
  | .notText => "path contains invalid UTF-8 characters"
  | .unwritable path fault =>
    "Failed to write report " ++ path.shown ++ ": " ++ fault.message

/-- The files with a report in its place, if one is asked for. Nothing is
done to them before all of the report is there. -/
def writeReport (r : Report) (path : Option SystemString)
    (fs : FileSystem) : Except ReportError FileSystem :=
  match path with
  | none => .ok fs
  | some path => match r.bytes? with
    | none => .error .notText
    | some bytes => match fs.write path bytes with
      | .ok fs => .ok fs
      | .error fault => .error (.unwritable path fault)

/-- Drawing a job. Its report is written whatever comes of it, once there
is a job. -/
def render (path video : SystemString) (output : Option SystemString)
    (timeout : Option UInt64) (probe : Bool) (report : Option SystemString)
    (fs : FileSystem) : Reply :=
  let asked := if probe then some video else none
  match Job.load h s.engine path asked fs with
  | (.error d, fs) =>
    .quiet ["Rendering job: " ++ path.shown] (jobFailure d) fs
  | (.ok j, fs) =>
    let output := output.getD (s.outputFor j.id)
    let said := announcement path video output j
    let run := Export.render ⟨video, output, j.components, j.duration⟩ h
      (engineOptions s timeout) fs
    match run.result with
    | .error .deadlineBeyondClock =>
      ⟨said, .aborted, run.attempt, run.files⟩
    | .ok outcome =>
      let r : Report := ⟨path, video, outcome, h.date, run.elapsed⟩
      match writeReport r report run.files with
      | .error cause =>
        ⟨said, .failed cause.message, run.attempt, run.files⟩
      | .ok fs =>
        let reported := match report with
          | none => []
          | some path => ["  Report: " ++ path.shown]
        let (last, conclusion) := verdict run.elapsed outcome
        ⟨said ++ reported ++ last, conclusion, run.attempt, fs⟩

/-- Whether the programs that are needed can be run. -/
def check (fs : FileSystem) : Reply :=
  let o := s.engine
  let (engineRuns, fs) := h.isAvailable o.engine fs
  let (proberRuns, fs) := h.isAvailable o.prober fs
  let lines := ["burnin System Check", String.ofList (List.replicate 50 '='),
    "Config file: " ++ e.settingsPath, "Output dir: " ++ s.outputDirectory, "",
    if engineRuns then "[OK] ffmpeg: " ++ o.engine
    else "[FAIL] ffmpeg: " ++ o.engine ++ " (not runnable)",
    if proberRuns then "[OK] ffprobe: " ++ o.prober
    else "[WARN] ffprobe: " ++ o.prober
      ++ " (not runnable, --probe disabled)",
    "     codec " ++ o.codec ++ " preset " ++ o.preset ++ " crf "
      ++ toString o.rateFactor.toNat ++ ", budget "
      ++ toString o.budget.toNat ++ "s",
    ""]
  if engineRuns then .quiet (lines ++ ["burnin is ready."]) .done fs
  else .quiet lines (.failed
    "ffmpeg is required; install it or set render.ffmpeg_path in the config")
    fs

-- =============================================================== answers

namespace Request

/-- The settings that a request is answered with. -/
def settings (r : Request) (fs : FileSystem) : Except SettingsError Settings :=
  match r.config with
  | some path => Settings.load e fs path
  | none => .ok (Settings.find e fs)

/-- The answer to a request. Without settings no command begins. -/
def reply (r : Request) (fs : FileSystem) : Reply :=
  match r.settings e fs with
  | .error cause => .quiet [] (.failed cause.message) fs
  | .ok s =>
    let fs := s.log.openFile fs
    match r.command with
    | .render job video output timeout probe report =>
      render h s job video output timeout probe report fs
    | .plan job video output => plan h s job video output fs
    | .check => check h e s fs

end Request

/-- The answer to a command line. -/
def reply (arguments : List SystemString) (fs : FileSystem) : Reply :=
  match Request.ofArguments arguments with
  | .ok r => r.reply h e fs
  | .error .version => .quiet ["burnin 0.1.0"] .done fs
  | .error .help => .quiet Reply.usage .done fs
  | .error .misuse => .quiet [] .misused fs

end TimedOverlay.Console
