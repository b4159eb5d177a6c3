/-
Settings as a JSON record, and their files.

Each setting is a member of its own, and one that is missing keeps its
default; members of other names are passed over. A file that was asked
for has to be there and to hold settings. The file in the usual place may
be missing or spoilt, and then all settings are the defaults.
-/
import TimedOverlay.Json.Strict
import TimedOverlay.Settings.Basic
import TimedOverlay.Storage.FileSystem

namespace TimedOverlay

open Json (Value Reader Field Record)

-- =============================================================== writing

/-- The settings of the engine as they are written. -/
def EngineSettings.toValue (s : EngineSettings) : Value :=
  .object [("ffmpeg_path", .string s.engine),
    ("ffprobe_path", .string s.prober),
    ("time_budget_secs", .ofNat s.budget.toNat),
    ("video_codec", .string s.codec), ("preset", .string s.preset),
    ("crf", .ofNat s.rateFactor.toNat), ("overwrite", .bool s.overwrite)]

/-- The settings of the log as they are written. -/
def LogSettings.toValue (s : LogSettings) : Value :=
  .object [("level", .string s.level), ("json", .bool s.json),
    ("file", .ofOption .string s.file)]

/-- All settings as they are written. -/
def Settings.toValue (s : Settings) : Value :=
  .object [("output_dir", .string s.outputDirectory),
    ("render", s.engine.toValue), ("logging", s.log.toValue)]

-- =============================================================== reading

/-- Any setting of the engine may be missing. -/
def EngineSettings.record : Record EngineSettings where
  name := "RenderSettings"
  start := .standard
  fields := [
    .of "ffmpeg_path" .defaulted Json.Strict.path
      fun s engine => { s with engine },
    .of "ffprobe_path" .defaulted Json.Strict.path
      fun s prober => { s with prober },
    .of "time_budget_secs" .defaulted (Json.Strict.natural 64)
      fun s seconds => { s with budget := .ofNat seconds },
    .of "video_codec" .defaulted Json.Strict.string
      fun s codec => { s with codec },
    .of "preset" .defaulted Json.Strict.string
      fun s preset => { s with preset },
    .of "crf" .defaulted (Json.Strict.natural 32)
      fun s factor => { s with rateFactor := .ofNat factor },
    .of "overwrite" .defaulted Json.Strict.boolean
      fun s overwrite => { s with overwrite }]

/-- Any setting of the log may be missing. -/
def LogSettings.record : Record LogSettings where
  name := "LoggingConfig"
  start := .standard
  fields := [
    .of "level" .defaulted Json.Strict.string fun s level => { s with level },
    .of "json" .defaulted Json.Strict.boolean fun s json => { s with json },
    .of "file" .defaulted (Json.Strict.optional Json.Strict.path)
      fun s file => { s with file }]

/-- Any part of the settings may be missing. -/
def Settings.record (e : Environment) : Record Settings where
  name := "AppConfig"
  start := .standard e
  fields := [
    .of "output_dir" .defaulted Json.Strict.path
      fun s outputDirectory => { s with outputDirectory },
    .of "render" .defaulted EngineSettings.record.reader
      fun s engine => { s with engine },
    .of "logging" .defaulted LogSettings.record.reader
      fun s log => { s with log }]

-- ================================================================= files

/-- Why there are no settings in a file. -/
inductive SettingsError where
  | unreadable (path : SystemString) (fault : SystemFault)
  | malformed (path : SystemString) (cause : Json.Error)
deriving DecidableEq

/-- The lack of settings in words. -/
def SettingsError.message : SettingsError → String
  | .unreadable path fault =>
    "Configuration error: Failed to read " ++ path.shown ++ ": "
      ++ fault.message
  | .malformed path cause =>
    "Configuration error: Failed to parse " ++ path.shown ++ ": "
      ++ cause.message

namespace Settings

/-- The settings in a file. -/
def load (e : Environment) (fs : FileSystem) (path : SystemString) :
    Except SettingsError Settings :=
  match fs.text path with
  | .error fault => .error (.unreadable path fault)
  | .ok text => match (record e).ofText text with
    | .error cause => .error (.malformed path cause)
    | .ok s => .ok s

/-- The settings in the usual place, or the defaults. -/
def find (e : Environment) (fs : FileSystem) : Settings :=
  match load e fs e.settingsPath with
  | .ok s => s
  | .error _ => .standard e

end Settings

/-- The file system with the file that the log goes to. A log that
cannot be kept in its file is no reason to stop. -/
def LogSettings.openFile (s : LogSettings) (fs : FileSystem) : FileSystem :=
  match s.file with
  | none => fs
  | some path =>
    let (fs, _) := fs.makeParent path
    match fs.append path [] with
    | .ok fs => fs
    | .error _ => fs

end TimedOverlay
