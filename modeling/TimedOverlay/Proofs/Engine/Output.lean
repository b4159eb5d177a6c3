/-
What a run does to a file that is at its output already.

Whether such a file may be replaced is an argument of the engine, and the
engine is the only one to be told. The clean-up after a timeout is not:
it removes whatever is at the output by then, be it a part of the new
video or the file that was there before. `Program.output_kept_iff` says
that this is the only way to lose the file. With an engine that leaves it
alone, the file outlives the run exactly if the engine does not overrun
its budget, and the permission makes no difference to that.
-/
import TimedOverlay.Proofs.Engine.Classification
import TimedOverlay.Proofs.Engine.Source

namespace TimedOverlay.Program

variable {h : Host} {o : EngineOptions} {source : SystemString} {p : Program}
  {output : SystemString} {fs : FileSystem}

-- ============================================================== overruns

/-- The engine of a run leaves what is at the output as it is, whatever
else it does. -/
def SparesOutput (h : Host) (o : EngineOptions) (source : SystemString)
    (p : Program) (output : SystemString) (fs : FileSystem) : Prop :=
  ∀ c, p.launch h o source output fs = .ok c →
    ∀ t, (c.files t).at? output = fs.at? output

/-- The engine of a run comes to work and misses its deadline. -/
def Overruns (h : Host) (o : EngineOptions) (source : SystemString)
    (p : Program) (output : SystemString) (fs : FileSystem) : Prop :=
  (fs.makeParent output).2 = none
    ∧ (h.clock + o.budget) / 10 ^ 9 < clockLimit
    ∧ ∃ c, p.launch h o source output fs = .ok c
      ∧ Run.Overdue o.budget c

/-- A run that is not overrun leaves the files of a moment of its engine,
or those that it had when there was room for the output. A run that is
overrun is a timeout, and the output is taken from the files of the
deadline. -/
theorem render_overruns_cases (h : Host) (o : EngineOptions)
    (source : SystemString) (p : Program) (output : SystemString) (fs : FileSystem) :
    (¬ p.Overruns h o source output fs
        ∧ ((p.render h o source output fs).files
            = (fs.makeParent output).1
          ∨ ∃ c t, p.launch h o source output fs = .ok c
            ∧ (p.render h o source output fs).files = c.files t))
      ∨ p.Overruns h o source output fs
        ∧ (p.render h o source output fs).result
          = .ok (.failure (.timeout (Run.reported o.budget)))
        ∧ ∃ c, p.launch h o source output fs = .ok c
          ∧ (p.render h o source output fs).files
            = (c.files o.budget).remove output := by
  rcases p.render_cases h o source output fs with
    ⟨dir, fault, hroom, hr⟩
    | ⟨hroom, ⟨hbeyond, hr⟩ | ⟨hclock, ⟨fault, hstart, hr⟩ | ⟨c, hstart, hr⟩⟩⟩
  · left
    refine ⟨?_, .inl (by rw [hr]; rfl)⟩
    intro hover
    have hroom' := hover.1
    rw [hroom] at hroom'
    cases hroom'
  · left
    refine ⟨?_, .inl (by rw [hr])⟩
    intro hover
    exact absurd hover.2.1 (Nat.not_lt.2 hbeyond)
  · left
    refine ⟨?_, .inl (by rw [hr])⟩
    intro hover
    obtain ⟨_, _, c, hlaunch, _⟩ := hover
    rw [launch, hstart] at hlaunch
    cases hlaunch
  · have hcourse : p.Overruns h o source output fs →
        Run.Overdue o.budget c := by
      intro hover
      obtain ⟨_, _, c', hlaunch, hoverdue⟩ := hover
      rw [launch, hstart] at hlaunch
      cases hlaunch
      exact hoverdue
    rw [hr]
    rcases Run.settle_cases o.budget output c with
      ⟨hoverdue, hs⟩ | ⟨t, fault, hend, ht, hs⟩
      | ⟨t, status, t', hend, ht, hclosed, ht', hs⟩
    · right
      rw [hs]
      exact ⟨⟨hroom, hclock, c, hstart, hoverdue⟩, rfl, c, hstart, rfl⟩
    · left
      rw [hs]
      refine ⟨?_, .inr ⟨c, t, hstart, rfl⟩⟩
      intro hover
      exact (hcourse hover).missed.1 fault ⟨t, hend, ht⟩
    · left
      rw [hs]
      refine ⟨?_, .inr ⟨c, max t t', hstart, rfl⟩⟩
      intro hover
      rcases (hcourse hover).missed.2 with hnever | hopen
      · exact hnever status ⟨t, hend, ht⟩
      · exact hopen ⟨t', hclosed, ht'⟩

-- ============================================================ the output

/-- A file at the output of a run whose engine leaves it alone outlives
the run as it was, with every outcome and whether or not it may be
replaced, unless the engine overruns its budget. Then the outcome is a
timeout, and the file is gone. -/
theorem output_kept_iff {content : List UInt8} {executable : Bool}
    (hfile : fs.at? output = some (.file content executable))
    (hengine : p.SparesOutput h o source output fs) :
    ((p.render h o source output fs).files.at? output
          = some (.file content executable)
        ↔ ¬ p.Overruns h o source output fs)
      ∧ (p.Overruns h o source output fs →
        (p.render h o source output fs).result
            = .ok (.failure (.timeout (Run.reported o.budget)))
          ∧ (p.render h o source output fs).files.at? output = none) := by
  rcases p.render_overruns_cases h o source output fs with
    ⟨hnot, hfiles⟩ | ⟨hover, hresult, c, hlaunch, hfiles⟩
  · have hkept : (p.render h o source output fs).files.at? output
        = some (.file content executable) := by
      rcases hfiles with hfiles | ⟨c, t, hlaunch, hfiles⟩
      -- Making room for an output hides nothing, not even the output.
      · rw [hfiles]
        exact FileSystem.at?_makeParent output hfile
      · rw [hfiles, hengine c hlaunch t]
        exact hfile
    exact ⟨⟨fun _ => hnot, fun _ => hkept⟩, fun hover => absurd hover hnot⟩
  · have hspared := (hengine c hlaunch o.budget).trans hfile
    have hgone : (p.render h o source output fs).files.at? output
        = none := by
      rw [hfiles]
      exact FileSystem.at?_remove_same hspared nofun rfl
    refine ⟨⟨?_, fun hnot => absurd hover hnot⟩,
      fun _ => ⟨hresult, hgone⟩⟩
    intro hkept
    rw [hgone] at hkept
    cases hkept

/-- Files with a video and what came of an earlier run among them. -/
def twoVideos : FileSystem where
  working := []
  entries := [(["v.mp4"], .file [118] false),
    (["w.mp4"], .file [119] false)]

/-- Options of an engine that gets a third of a second and may replace
nothing. -/
def sparing : EngineOptions :=
  ⟨"ffmpeg", 300000000, "libx264", "slow", 18, false⟩

/-- A machine on which every program refuses to work at once. -/
def refusingHost : Host where
  clock := 0
  date := 0
  course := fun _ _ fs =>
    .ok ⟨some (2, .exited (some 1)), some 2, [], [], fun _ => fs⟩

/-- An engine that refuses to replace a video leaves it. -/
theorem output_kept_refused :
    (passthrough.render refusingHost sparing "v.mp4" "w.mp4"
        twoVideos).files.at? "w.mp4"
      = some (.file [119] false) := by
  have hlaunch : passthrough.launch refusingHost sparing "v.mp4" "w.mp4"
      twoVideos
        = .ok ⟨some (2, .exited (some 1)), some 2, [], [],
          fun _ => twoVideos⟩ := by
    rfl
  have hengine : passthrough.SparesOutput refusingHost sparing "v.mp4"
      "w.mp4" twoVideos := by
    intro c hc t
    rw [hlaunch] at hc
    cases hc
    rfl
  refine (output_kept_iff (by rfl) hengine).1.2 ?_
  intro hover
  obtain ⟨_, _, c, hc, hoverdue⟩ := hover
  rw [hlaunch] at hc
  cases hc
  exact hoverdue.missed.2.elim
    (fun hnever => hnever (some 1) ⟨2, rfl, by decide⟩)
    (fun hopen => hopen ⟨2, rfl, by decide⟩)

/-- A video that may not be replaced is lost to an engine that never ends
and has not touched it. -/
theorem output_lost_untouched :
    sparing.overwrite = false
      ∧ passthrough.SparesOutput Export.idleHost sparing "v.mp4" "w.mp4"
        twoVideos
      ∧ twoVideos.at? "w.mp4" = some (.file [119] false)
      ∧ (passthrough.render Export.idleHost sparing "v.mp4" "w.mp4"
          twoVideos).files.at? "w.mp4" = none := by
  refine ⟨rfl, ?_, by rfl, by rfl⟩
  intro c hc t
  have hlaunch : passthrough.launch Export.idleHost sparing "v.mp4"
      "w.mp4" twoVideos
        = .ok ⟨none, none, [], [], fun _ => twoVideos⟩ := by
    rfl
  rw [hlaunch] at hc
  cases hc
  rfl

end TimedOverlay.Program
