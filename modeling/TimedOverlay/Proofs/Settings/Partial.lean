/-
Settings of which a part is written down.

The settings are written as one object with two more inside. Members may
be taken out of each of the three, and others put in that mean nothing to
it (`Settings.Edit`). What is read from the rest is told one setting at a
time: it has its value if its member is there, and its default if the
member or the whole section is missing (`Settings.edited`). No other
member has a say in it, nor has the order in which they stand, nor what
was put in beside them, however deeply that is nested: what is passed over
has no limit of depth.

Every field of these records may be left out, and the fields put their
parts in different places. So a record is restored from any of its members
(`Json.Record.restores_edited`), the inner records first.
-/
import Mathlib
import TimedOverlay.Proofs.Json.Restoring
import TimedOverlay.Proofs.Text.Encoding
import TimedOverlay.Settings.Record

namespace TimedOverlay

namespace Json

variable {α β : Type}

-- ================================================================ edits

/-- A change to an object that holds a record: the names of members that
are taken out, and members that are put in, none of them one that the
record has a field for. -/
structure Edit (r : Record α) where
  gone : List String
  added : List (String × Value)
  unknown : ∀ p ∈ added, p.1 ∉ r.fields.map (·.name)

namespace Edit

variable {r : Record α} (d : Edit r)

/-- An object after the change. Other values have no members. -/
def apply : Value → Value
  | .object ms => .object (d.added ++ ms.filter (·.1 ∉ d.gone))
  | v => v

/-- What becomes of a part that is read from the member of this name. -/
def keep (name : String) (a default : β) : β :=
  if name ∈ d.gone then default else a

theorem keep_self (name : String) (a : β) : d.keep name a a = a := ite_self a

end Edit

namespace Value

/-- An object in which the members of a name are changed. -/
def inMember (name : String) (f : Value → Value) : Value → Value
  | .object ms =>
    .object (ms.map fun p => if p.1 = name then (p.1, f p.2) else p)
  | v => v

/-- A text tells a value, however deeply that is nested. -/
def ToldBy (v : Value) (s : String) : Prop :=
  ∃ depth, readText (Outline.value depth) s = .ok v

end Value

namespace Record

variable {r : Record α} {m : Mode} {depth : Nat}

/-- A record that can do without any of its members is restored from those
that are left. -/
theorem restores_edited (henter : 0 < depth → m.enter = .ok m.inner)
    {ws : List (Written α)}
    (hfields : List.Forall₂ (Field.Restores m.inner (depth - 1)) r.fields ws)
    (hsound : ∀ p ∈ ws, p.sound)
    (hoptional : ∀ f ∈ r.fields, f.presence ≠ .required)
    (hnodup : (r.fields.map (·.name)).Nodup) (hcommute : Commute ws)
    (d : Edit r) :
    Restores m depth r.reader (d.apply (.object (ws.map Written.member)))
      True (ws.foldl (fun a p => d.keep p.name (p.put a) a) r.start) := by
  have hsome : (ws.filter (·.name ∉ d.gone)).Sublist ws :=
    List.filter_sublist
  have h := restores_of_sublist henter hfields hsome
    (fun f hf hrequired => (hoptional f hf hrequired).elim) hnodup d.unknown
    hcommute
  have hmembers : (ws.map Written.member).filter (·.1 ∉ d.gone)
      = (ws.filter (·.name ∉ d.gone)).map Written.member :=
    List.filter_map
  have hfold : (ws.filter (·.name ∉ d.gone)).foldl (fun a p => p.put a)
        r.start
      = ws.foldl (fun a p => d.keep p.name (p.put a) a) r.start := by
    rw [List.foldl_filter]
    congr 1
    funext a p
    by_cases hgone : p.name ∈ d.gone
    · simp [Edit.keep, hgone]
    · simp [Edit.keep, hgone]
  rw [Edit.apply, hmembers, ← hfold]
  exact h.iff (iff_true_intro fun p hp => hsound p (hsome.subset hp))

end Record

end Json

open Json (Value Mode Restores Field Record Edit)

-- ============================================================= settings

section

variable {m : Mode} {depth : Nat}

namespace EngineSettings

/-- The settings of the engine that are read after a change. -/
def edited (d : Edit record) (s : EngineSettings) : EngineSettings where
  engine := d.keep "ffmpeg_path" s.engine "ffmpeg"
  prober := d.keep "ffprobe_path" s.prober "ffprobe"
  budget := d.keep "time_budget_secs" s.budget 3600
  codec := d.keep "video_codec" s.codec "libx264"
  preset := d.keep "preset" s.preset "slow"
  rateFactor := d.keep "crf" s.rateFactor 18
  overwrite := d.keep "overwrite" s.overwrite true

theorem keep_eq {α : Type} {r : Record α} (d : Edit r) (name : String)
    (s t : EngineSettings) :
    d.keep name s t
      = ⟨d.keep name s.engine t.engine, d.keep name s.prober t.prober,
        d.keep name s.budget t.budget, d.keep name s.codec t.codec,
        d.keep name s.preset t.preset,
        d.keep name s.rateFactor t.rateFactor,
        d.keep name s.overwrite t.overwrite⟩ := by
  unfold Edit.keep
  split
  · rfl
  · rfl

theorem restores (henter : 0 < depth → m.enter = .ok m.inner)
    (s : EngineSettings) (d : Edit record) :
    Restores m depth record.reader (d.apply s.toValue) True (s.edited d) := by
  have hfields : List.Forall₂ (Field.Restores m.inner (depth - 1))
      record.fields _ :=
    .cons (.of (.text _ s.engine) _ _ _)
      (.cons (.of (.text _ s.prober) _ _ _)
        (.cons (.of (.natural s.budget.toNat_lt) _ _ _)
          (.cons (.of (.text _ s.codec) _ _ _)
            (.cons (.of (.text _ s.preset) _ _ _)
              (.cons (.of (.natural s.rateFactor.toNat_lt) _ _ _)
                (.cons (.of (.boolean s.overwrite) _ _ _) .nil))))))
  have h := Record.restores_edited henter hfields (by simp) (by decide)
    (by decide) (by simp [Record.Commute]) d
  simp only [List.foldl_cons, List.foldl_nil, keep_eq, Edit.keep_self,
    UInt64.ofNat_toNat, UInt32.ofNat_toNat] at h
  exact h

end EngineSettings

namespace LogSettings

/-- The settings of the log that are read after a change. -/
def edited (d : Edit record) (s : LogSettings) : LogSettings where
  level := d.keep "level" s.level "info"
  json := d.keep "json" s.json false
  file := d.keep "file" s.file none

theorem keep_eq {α : Type} {r : Record α} (d : Edit r) (name : String)
    (s t : LogSettings) :
    d.keep name s t
      = ⟨d.keep name s.level t.level, d.keep name s.json t.json,
        d.keep name s.file t.file⟩ := by
  unfold Edit.keep
  split
  · rfl
  · rfl

theorem restores (henter : 0 < depth → m.enter = .ok m.inner)
    (s : LogSettings) (d : Edit record) :
    Restores m depth record.reader (d.apply s.toValue) True (s.edited d) := by
  have hfile : Restores m.inner (depth - 1)
      (Json.Strict.optional Json.Strict.path) (.ofOption .string s.file)
      (∀ p ∈ s.file, True) s.file :=
    .optional (fun p => .text _ p) (fun _ h => nomatch h) s.file
  have hfields : List.Forall₂ (Field.Restores m.inner (depth - 1))
      record.fields _ :=
    .cons (.of (.text _ s.level) _ _ _)
      (.cons (.of (.boolean s.json) _ _ _)
        (.cons (.of hfile _ _ _) .nil))
  have h := Record.restores_edited henter hfields (by simp) (by decide)
    (by decide) (by simp [Record.Commute]) d
  simp only [List.foldl_cons, List.foldl_nil, keep_eq, Edit.keep_self] at h
  exact h

end LogSettings

end

namespace Settings

variable {e : Environment}

/-- A change to settings as they are written: to the object of all
settings, and to those of the engine and of the log in it. -/
structure Edits (e : Environment) where
  outer : Edit (record e)
  engine : Edit EngineSettings.record
  log : Edit LogSettings.record

namespace Edits

variable (d : Edits e)

/-- Settings as they are written after the change. -/
def apply (v : Value) : Value :=
  d.outer.apply
    ((v.inMember "render" d.engine.apply).inMember "logging" d.log.apply)

/-- Every name that is taken out of one of the objects. -/
def gone : List String := d.outer.gone ++ d.engine.gone ++ d.log.gone

end Edits

/-- The settings that are read after a change. -/
def edited (d : Edits e) (s : Settings) : Settings where
  outputDirectory := d.outer.keep "output_dir" s.outputDirectory
    (Path.join (e.temporary.getD "/tmp") "burnin-outputs")
  engine := d.outer.keep "render" (s.engine.edited d.engine) .standard
  log := d.outer.keep "logging" (s.log.edited d.log) .standard

theorem keep_eq {α : Type} {r : Record α} (d : Edit r) (name : String)
    (s t : Settings) :
    d.keep name s t
      = ⟨d.keep name s.outputDirectory t.outputDirectory,
        d.keep name s.engine t.engine, d.keep name s.log t.log⟩ := by
  unfold Edit.keep
  split
  · rfl
  · rfl

theorem restores (depth : Nat) (s : Settings) (d : Edits e) :
    Restores .start depth (record e).reader (d.apply s.toValue) True
      (s.edited d) := by
  have hfields : List.Forall₂ (Field.Restores Mode.start.inner (depth - 1))
      (record e).fields _ :=
    .cons (.of (.text _ s.outputDirectory) _ _ _)
      (.cons (.of (s.engine.restores (fun _ => rfl) d.engine) _ _ _)
        (.cons (.of (s.log.restores (fun _ => rfl) d.log) _ _ _) .nil))
  have hnames : (record e).fields.map (·.name)
      = ["output_dir", "render", "logging"] := rfl
  have h := Record.restores_edited (fun _ => rfl) hfields (by simp)
    (by simp [record, Field.of]) (hnames ▸ by decide)
    (by simp [Record.Commute]) d.outer
  simp only [List.foldl_cons, List.foldl_nil, keep_eq, Edit.keep_self] at h
  exact h

/-- Settings of which nothing was taken out are read as they were. -/
theorem edited_eq_self {d : Edits e} (hgone : d.gone = []) (s : Settings) :
    s.edited d = s := by
  obtain ⟨houter, hengine, hlog⟩ :
      d.outer.gone = [] ∧ d.engine.gone = [] ∧ d.log.gone = [] := by
    simpa [Edits.gone] using hgone
  simp [edited, EngineSettings.edited, LogSettings.edited, Edit.keep, houter,
    hengine, hlog]

/-- A file that tells settings without some of their members, with others
beside them and in any order, is read as these settings with the default
of each member that is gone, and as the settings themselves if none is. -/
theorem load_edited (s : Settings) (d : Edits e) {w : Value}
    (hw : (d.apply s.toValue).Reordered w) {text : String}
    (htext : w.ToldBy text) {fs : FileSystem} {path : SystemString}
    (hfile : fs.text path = .ok text) :
    load e fs path = .ok (s.edited d)
      ∧ (d.gone = [] → load e fs path = .ok s) := by
  obtain ⟨depth, hread⟩ := htext
  have hs : (record e).ofText text = .ok (s.edited d) :=
    (Record.ofText_yields hw hread (s.restores depth d)).ok trivial
  have hload : load e fs path = .ok (s.edited d) := by
    unfold load
    rw [hfile]
    dsimp only
    rw [hs]
  refine ⟨hload, fun hgone => ?_⟩
  rw [hload, edited_eq_self hgone]

/-- Settings none of which is the default. -/
def unusual : Settings where
  outputDirectory := "out"
  engine := ⟨"./e.sh", "./p.sh", 18446744073709551615, "h", "fast", 0, false⟩
  log := ⟨"debug", true, some "b.log"⟩

/-- Only the budget and the file of the log are left, and each object has
a member more. -/
def sparse : Edits ⟨none, none, none⟩ where
  outer := ⟨["output_dir"], [("x", .array [.null])], by decide⟩
  engine := ⟨["ffmpeg_path", "ffprobe_path", "video_codec", "preset", "crf",
    "overwrite"], [("fps", .ofNat 25)], by decide⟩
  log := ⟨["level", "json"], [("tone", .null)], by decide⟩

/-- What is left, with the log in front and its file before the rest. -/
def rest : String :=
  "\x7b\"logging\":\x7b\"file\":\"b.log\",\"tone\":null\x7d,\"x\":[null],"
    ++ "\"render\":\x7b\"fps\":25,"
    ++ "\"time_budget_secs\":18446744073709551615\x7d\x7d"

theorem load_edited_sparse :
    load ⟨none, none, none⟩
        ⟨[], [(["c.json"], .file (Utf8.encode rest) false)]⟩ "c.json"
      = .ok ⟨"/tmp/burnin-outputs",
        ⟨"ffmpeg", "ffprobe", 18446744073709551615, "libx264", "slow", 18,
          true⟩,
        ⟨"info", false, some "b.log"⟩⟩ := by
  have hw : (sparse.apply unusual.toValue).Reordered
      (.object [
        ("logging", .object [("file", .string "b.log"), ("tone", .null)]),
        ("x", .array [.null]),
        ("render", .object [("fps", .ofNat 25),
          ("time_budget_secs", .ofNat 18446744073709551615)])]) := by
    have hlog : Value.Reordered
        (.object [("tone", .null), ("file", .string "b.log")])
        (.object [("file", .string "b.log"), ("tone", .null)]) :=
      .object (.swap _ _ _) rfl (List.forall₂_same.2 fun v _ => .same v)
    have happly : sparse.apply unusual.toValue
        = .object [("x", .array [.null]),
          ("render", .object [("fps", .ofNat 25),
            ("time_budget_secs", .ofNat 18446744073709551615)]),
          ("logging", .object [("tone", .null),
            ("file", .string "b.log")])] := by
      rfl
    rw [happly]
    exact .object (@List.perm_append_comm _ [_, _] [_]) rfl
      (.cons hlog (List.forall₂_same.2 fun v _ => .same v))
  have htext : Value.ToldBy (.object [
        ("logging", .object [("file", .string "b.log"), ("tone", .null)]),
        ("x", .array [.null]),
        ("render", .object [("fps", .ofNat 25),
          ("time_budget_secs", .ofNat 18446744073709551615)])]) rest := by
    refine ⟨2, ?_⟩
    cbv
  have hcontents : FileSystem.contents
      ⟨[], [(["c.json"], .file (Utf8.encode rest) false)]⟩ "c.json"
        = .ok (Utf8.encode rest) := by
    rfl
  exact (load_edited unusual sparse hw htext
    (FileSystem.text_of_contents hcontents)).1

end Settings

end TimedOverlay
