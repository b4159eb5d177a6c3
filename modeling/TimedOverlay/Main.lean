/-
The program itself, the one module that touches a machine.

A request is answered on a stock of the places that it can concern, taken
beforehand; what the answer changed there is carried out afterwards. No
program can be started from here: a request that needs one is told that
this is not supported.
-/
import Std.Time.DateTime.Timestamp
import TimedOverlay.Console.Reply

namespace TimedOverlay.Console

-- ================================================================ places

/-- The file in which the settings of a request are looked for. -/
def Request.settingsPath (e : Environment) (r : Request) : SystemString :=
  r.config.getD e.settingsPath

/-- The file of the job that a request is about. -/
def Request.jobPath? (r : Request) : Option SystemString :=
  match r.command with
  | .render job .. => some job
  | .plan job .. => some job
  | .check => none

/-- The places that a request concerns although it does not read them. -/
def Request.places (s : Settings) (r : Request) : List SystemString :=
  let written := match r.command with
    | .render job video output _ _ report =>
      [video, output.getD (s.outputFor (Job.idOf job))] ++ report.toList
    | _ => []
  written ++ s.log.file.toList.map .text

-- ============================================================ the machine

/-- What is at a path of the machine. The content of a file is taken
along only if it is asked for. -/
def look (path : String) (content : Bool) : IO (Option Entry) := do
  try
    if content then
      return some (.file (← IO.FS.readBinFile path).toList false)
    let handle ← IO.FS.Handle.mk path .read
    let _ ← handle.read 1
    return some (.file [] false)
  catch
    | .inappropriateType .. => return some .directory
    | _ => return none

/-- A stock with a path and all on the way to it. -/
def take (fs : FileSystem) (path : SystemString) (content : Bool) :
    IO FileSystem := do
  let names := (FileSystem.names path).map (·.shown)
  let count := names.length
  let mut fs := fs
  for i in List.range count do
    let start := String.intercalate "/" (names.take (i + 1))
    let start := if start.isEmpty then "/" else start
    match fs.locate start with
    | .error _ => continue
    | .ok l =>
      if (fs.get? l).isNone then
        if let some e ← look start (content && i + 1 == count) then
          fs := fs.put l e
  return fs

/-- A stock of nothing but the working directory. -/
def takeWorking : IO FileSystem := do
  let current := SystemString.text (toString (← IO.currentDir))
  let working := (FileSystem.names current).filter (!·.isEmpty)
  let ways := (List.range working.length).map fun i => working.take (i + 1)
  return ⟨working, ways.map (·, Entry.directory)⟩

/-- The path of a place. -/
def pathOf (l : Location) : String :=
  "/" ++ String.intercalate "/" (l.map (·.shown))

/-- Carries out on the machine what is different between two stocks. -/
def carryOut (before after : FileSystem) : IO Unit := do
  for (l, e) in after.entries.reverse do
    if before.get? l ≠ some e then
      match e with
      | .directory => IO.FS.createDirAll (pathOf l)
      | .file content _ =>
        IO.FS.writeBinFile (pathOf l) ⟨content.toArray⟩
      | .device => pure ()
  for (l, _) in before.entries do
    if (after.get? l).isNone then IO.FS.removeFile (pathOf l)

/-- A machine on which no program can be started. -/
def bareHost (clock date : Nat) : Host where
  clock := clock
  date := date
  course _ _ _ := .error .notSupported

/-- The stock that a command line is answered on. -/
def takeFor (e : Environment) (arguments : List SystemString) :
    IO FileSystem := do
  let fs ← takeWorking
  match Request.ofArguments arguments with
  | .error _ => return fs
  | .ok r =>
    let fs ← take fs (r.settingsPath e) true
    match r.settings e fs with
    | .error _ => return fs
    | .ok s =>
      let mut fs := fs
      if let some job := r.jobPath? then
        fs ← take fs job true
      for path in r.places s do
        fs ← take fs path false
      return fs

/-- Answers a command line on this machine. -/
def perform (arguments : List SystemString) : IO UInt32 := do
  let environment : Environment :=
    { configHome := ← IO.getEnv "XDG_CONFIG_HOME"
      home := ← IO.getEnv "HOME"
      temporary := ← IO.getEnv "TMPDIR" }
  let date := (← Std.Time.Timestamp.now).toNanosecondsSinceUnixEpoch
  let host := bareHost (← IO.monoNanosNow) date.toInt.toNat
  let before ← takeFor environment arguments
  let r := reply host environment arguments before
  carryOut before r.files
  IO.print r.output
  IO.eprint r.errors
  return r.code.toUInt32

end TimedOverlay.Console

def main (arguments : List String) : IO UInt32 :=
  TimedOverlay.Console.perform (arguments.map .text)
