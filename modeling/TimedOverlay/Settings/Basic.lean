/-
Settings: where videos go, which engine draws them and how, and where
the log goes.

Every setting has a value of its own when nothing is said about it, so
settings are complete whatever part of them was written down. Where they
are looked for depends on the environment alone.
-/
import TimedOverlay.Storage.Path

namespace TimedOverlay

/-- The variables around the program, as far as they matter: where a
user keeps settings, where the user is at home, where files may be left
for a while. -/
structure Environment where
  configHome : Option String
  home : Option String
  temporary : Option String
deriving DecidableEq

namespace Environment

variable (e : Environment)

/-- The directory of settings, by default one in the home directory. -/
def configDirectory : String :=
  e.configHome.getD (Path.join (e.home.getD "/tmp") ".config")

/-- The file in which settings are looked for. -/
def settingsPath : String :=
  Path.join (Path.join e.configDirectory "burnin") "config.json"

/-- The directory in which videos are put by default. -/
def outputDirectory : String :=
  Path.join (e.temporary.getD "/tmp") "burnin-outputs"

end Environment

-- ============================================================== settings

/-- How videos are drawn and probed. -/
structure EngineSettings where
  engine : String
  prober : String
  /-- The time that one video may take, in seconds. -/
  budget : UInt64
  codec : String
  preset : String
  /-- The constant rate factor. -/
  rateFactor : UInt32
  /-- Whether a video that is there already is replaced. -/
  overwrite : Bool
deriving DecidableEq

/-- What is logged, and where. -/
structure LogSettings where
  level : String
  json : Bool
  file : Option String
deriving DecidableEq

/-- All settings. -/
structure Settings where
  outputDirectory : String
  engine : EngineSettings
  log : LogSettings
deriving DecidableEq

/-- The engine and prober of the search path, with an hour for a video. -/
def EngineSettings.standard : EngineSettings where
  engine := "ffmpeg"
  prober := "ffprobe"
  budget := 3600
  codec := "libx264"
  preset := "slow"
  rateFactor := 18
  overwrite := true

/-- The log goes to no file. -/
def LogSettings.standard : LogSettings := ⟨"info", false, none⟩

namespace Settings

/-- The settings when nothing is said. -/
def standard (e : Environment) : Settings :=
  ⟨e.outputDirectory, .standard, .standard⟩

/-- Where the video of a job goes unless it is said. -/
def outputFor (s : Settings) (job : String) : String :=
  Path.join s.outputDirectory (job ++ ".mp4")

end Settings

end TimedOverlay
