/-
What an export does to its source.

Nothing but the engine writes into a video, and yet an export can lose
its source: when the time runs out the output is removed, and nothing
keeps the output from being the source. `Export.source_kept_iff` says
that this is the only way, for every host whose engine leaves the source
as it is: the source is lost exactly if the time ran out and at that
moment both paths led to one place.
-/
import TimedOverlay.Proofs.Engine.Course
import TimedOverlay.Proofs.Storage.Frame

namespace TimedOverlay.Export

variable {e : Export} {h : Host} {o : EngineOptions} {fs : FileSystem}

-- ============================================================== launching

/-- How the engine is started for an export, once there is room for its
output. -/
def launch (e : Export) (h : Host) (o : EngineOptions) (fs : FileSystem) :
    Except SystemFault Course :=
  h.start o.engine
    ((o.arguments e.source (Program.compile e.duration e.components)
      e.output).map .text)
    (fs.makeParent e.output).1

/-- The engine leaves the source as it is, whatever else it does. -/
def EngineSpares (e : Export) (h : Host) (o : EngineOptions)
    (fs : FileSystem) : Prop :=
  ∀ c, e.launch h o fs = .ok c →
    ∀ t, (c.files t).at? e.source = fs.at? e.source

/-- The time ran out. -/
def TimedOut (e : Export) (h : Host) (o : EngineOptions)
    (fs : FileSystem) : Prop :=
  (e.render h o fs).result
    = .ok (.failure (.timeout (Run.reported o.budget)))

/-- At its deadline the output led to where the source is. -/
def OutputIsSource (e : Export) (h : Host) (o : EngineOptions)
    (fs : FileSystem) : Prop :=
  ∃ c, e.launch h o fs = .ok c
    ∧ (c.files o.budget).locate e.output
      = (c.files o.budget).locate e.source

/-- A source that is no file stops an export before it does anything. -/
theorem render_of_noSource (hsource : fs.isFile e.source = false) :
    e.render h o fs = .unstarted (.noSource e.source) fs := by
  unfold render
  rw [hsource]
  rfl

theorem render_of_source (hsource : fs.isFile e.source = true) :
    e.render h o fs
      = (Program.compile e.duration e.components).render h o e.source
          e.output fs := by
  unfold render
  rw [hsource]
  rfl

theorem exists_of_isFile {path : SystemString} (hfile : fs.isFile path = true) :
    ∃ entry, fs.at? path = some entry ∧ entry ≠ .directory := by
  unfold FileSystem.isFile at hfile
  split at hfile
  next content executable hat => exact ⟨_, hat, nofun⟩
  next => cases hfile

-- ================================================== keeping and losing

/-- An export whose time does not run out keeps its source. -/
theorem source_kept_of_in_time (hengine : e.EngineSpares h o fs)
    (htime : ¬ e.TimedOut h o fs) :
    (e.render h o fs).files.at? e.source = fs.at? e.source := by
  unfold TimedOut at htime
  cases hsource : fs.isFile e.source with
  | false =>
      rw [render_of_noSource hsource]
      rfl
  | true =>
      obtain ⟨entry, hat, _⟩ := exists_of_isFile hsource
      rw [render_of_source hsource] at htime ⊢
      rcases Program.render_files h o e.source
          (Program.compile e.duration e.components) e.output fs with
        ⟨hfiles, _⟩ | ⟨c, hstart, hresult, hfiles⟩
      -- Nothing was done but to make room, which hides nothing.
      · rw [hfiles, hat]
        exact FileSystem.at?_makeParent e.output hat
      · rw [hresult] at htime
        rcases Run.settle_files o.budget e.output c with
          ⟨hout, _⟩ | ⟨_, t, hsettled⟩
        · exact absurd (congrArg Except.ok hout) htime
        · rw [hfiles, hsettled]
          exact hengine c hstart t

/-- When the time runs out, the engine has been started, the source is a
file, and the output is taken from the files of the deadline. -/
theorem files_of_timedOut (htime : e.TimedOut h o fs) :
    fs.isFile e.source = true
      ∧ ∃ c, e.launch h o fs = .ok c
        ∧ (e.render h o fs).files
          = (c.files o.budget).remove e.output := by
  unfold TimedOut at htime
  cases hsource : fs.isFile e.source with
  | false =>
      rw [render_of_noSource hsource] at htime
      cases htime
  | true =>
      rw [render_of_source hsource] at htime ⊢
      rcases Program.render_files h o e.source
          (Program.compile e.duration e.components) e.output fs with
        ⟨_, hout⟩ | ⟨c, hstart, hresult, hfiles⟩
      · exact absurd htime hout
      · rw [hresult] at htime
        rcases Run.settle_files o.budget e.output c with
          ⟨_, hsettled⟩ | ⟨hout, _⟩
        · exact ⟨rfl, c, hstart, hfiles.trans hsettled⟩
        · exact absurd (Except.ok.inj htime) hout

/-- The output of an export leads to where the source is exactly if it
does so in the course that its engine takes. -/
theorem outputIsSource_iff {c : Course} (hstart : e.launch h o fs = .ok c) :
    e.OutputIsSource h o fs
      ↔ (c.files o.budget).locate e.output
        = (c.files o.budget).locate e.source := by
  refine ⟨?_, fun hsame => ⟨c, hstart, hsame⟩⟩
  rintro ⟨c', hstart', hsame⟩
  rw [hstart] at hstart'
  cases hstart'
  exact hsame

/-- An export whose engine spares the source keeps the source as it was,
with every outcome and also if output and source are given alike, unless
the time runs out while the output leads to where the source is; then the
source is gone. -/
theorem source_kept_iff (hengine : e.EngineSpares h o fs) :
    ((e.render h o fs).files.at? e.source = fs.at? e.source
        ↔ ¬ (e.TimedOut h o fs ∧ e.OutputIsSource h o fs))
      ∧ (e.TimedOut h o fs ∧ e.OutputIsSource h o fs
          → (e.render h o fs).files.at? e.source = none) := by
  by_cases htime : e.TimedOut h o fs
  · obtain ⟨hsource, c, hstart, hfiles⟩ := files_of_timedOut htime
    obtain ⟨entry, hat, hfile⟩ := exists_of_isFile hsource
    have hspared := (hengine c hstart o.budget).trans hat
    rw [outputIsSource_iff hstart, hfiles, hat]
    -- The output is removed from files that have the source as it was.
    by_cases hsame : (c.files o.budget).locate e.output
        = (c.files o.budget).locate e.source
    · have hgone := FileSystem.at?_remove_same hspared hfile hsame
      rw [hgone]
      exact ⟨⟨nofun, fun hnot => absurd ⟨htime, hsame⟩ hnot⟩, fun _ => rfl⟩
    · have hkept := FileSystem.at?_remove_other hspared hsame
      exact ⟨⟨fun _ hboth => hsame hboth.2, fun _ => hkept⟩,
        fun hboth => absurd hboth.2 hsame⟩
  · have hkept := source_kept_of_in_time hengine htime
    exact ⟨⟨fun _ hboth => htime hboth.1, fun _ => hkept⟩,
      fun hboth => absurd hboth.1 htime⟩

/-- A host whose programs never end and change nothing. -/
def idleHost : Host where
  clock := 0
  date := 0
  course := fun _ _ fs => .ok ⟨none, none, [], [], fun _ => fs⟩

/-- Files with a video among them. -/
def oneVideo : FileSystem where
  working := []
  entries := [(["v.mp4"], .file [118] false)]

/-- Options of an engine that gets a third of a second. -/
def briefly : EngineOptions :=
  ⟨"ffmpeg", 300000000, "libx264", "slow", 18, true⟩

/-- A video that is to be written elsewhere outlives an engine that never
ends. -/
theorem source_kept_elsewhere :
    EngineSpares ⟨"v.mp4", "w.mp4", [], .zero⟩ idleHost briefly oneVideo
      ∧ TimedOut ⟨"v.mp4", "w.mp4", [], .zero⟩ idleHost briefly oneVideo
      ∧ (render ⟨"v.mp4", "w.mp4", [], .zero⟩ idleHost briefly
            oneVideo).files.at? "v.mp4"
          = some (.file [118] false) := by
  have hstart : launch ⟨"v.mp4", "w.mp4", [], .zero⟩ idleHost briefly
      oneVideo = .ok ⟨none, none, [], [], fun _ => oneVideo⟩ := by
    rfl
  have hengine : EngineSpares ⟨"v.mp4", "w.mp4", [], .zero⟩ idleHost
      briefly oneVideo := by
    intro c hc t
    rw [hstart] at hc
    cases hc
    rfl
  refine ⟨hengine, by rfl, ?_⟩
  refine ((source_kept_iff hengine).1.2 ?_).trans (by rfl)
  rintro ⟨_, hsame⟩
  have hthere : oneVideo.locate "w.mp4" = .ok ["w.mp4"] := by rfl
  have hhere : oneVideo.locate "v.mp4" = .ok ["v.mp4"] := by rfl
  have hone := hthere.symm.trans
    (((outputIsSource_iff hstart).1 hsame).trans hhere)
  exact absurd (Except.ok.inj hone) (by decide)

/-- A video that is to be written over itself is lost when the time runs
out, although the engine did nothing. -/
theorem source_lost_in_place :
    EngineSpares ⟨"v.mp4", "v.mp4", [], .zero⟩ idleHost briefly oneVideo
      ∧ oneVideo.at? "v.mp4" = some (.file [118] false)
      ∧ (render ⟨"v.mp4", "v.mp4", [], .zero⟩ idleHost briefly
            oneVideo).files.at? "v.mp4" = none := by
  refine ⟨?_, by rfl, by rfl⟩
  intro c hc t
  have hstart : launch ⟨"v.mp4", "v.mp4", [], .zero⟩ idleHost briefly
      oneVideo = .ok ⟨none, none, [], [], fun _ => oneVideo⟩ := by
    rfl
  rw [hstart] at hc
  cases hc
  rfl

end TimedOverlay.Export
