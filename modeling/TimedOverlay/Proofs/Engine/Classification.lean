/-
Every run is told by its environment.

A run depends on whether there is room for its output, on whether its
engine starts, and then on three things: when the wait for the engine
ends and how, when the last holder of its error stream closes it, and
what was written there. `Course.EndsWith` and `Run.Ends` say what comes
of them, one rule for each way to end; `Program.render_ends_iff` says
that a run whose deadline the clock can show ends by one of these rules
and never otherwise. That two rules cannot both apply need not be shown:
each of them determines the outcome (`settle_of_endsWith`).

An event at the deadline itself counts as one that is in time.
-/
import TimedOverlay.Proofs.Engine.Course
import TimedOverlay.Proofs.Storage.Frame

namespace TimedOverlay

-- ================================================================ events

namespace Course

variable (budget : Nat) (c : Course)

/-- The engine exits by its deadline, with this status. -/
def Exits (status : Option Int) : Prop :=
  ∃ t, c.ending = some (t, .exited status) ∧ t ≤ budget

/-- The wait for the engine fails by its deadline. -/
def IsLost (fault : SystemFault) : Prop :=
  ∃ t, c.ending = some (t, .lost fault) ∧ t ≤ budget

/-- The streams of the engine are closed by its deadline. -/
def Closes : Prop := ∃ t, c.closed = some t ∧ t ≤ budget

/-- What a course comes to. The budget is told in milliseconds, as far as
a report can count; a signal leaves no status; the errors are all that was
written, as text. -/
inductive EndsWith (output : SystemString) : Outcome → Prop where
  | lost {fault : SystemFault} (hlost : c.IsLost budget fault) :
      EndsWith output
        (.failure (.internal (Obstacle.noWait fault).message))
  | late {told : UInt64} (hlost : ∀ fault, ¬ c.IsLost budget fault)
      (hmissed : (∀ status, ¬ c.Exits budget status) ∨ ¬ c.Closes budget)
      (htold : told.toNat = min (budget / 10 ^ 6) (2 ^ 64 - 1)) :
      EndsWith output (.failure (.timeout told))
  | refused {status : Option Int} (hstatus : status ≠ some 0)
      (hexits : c.Exits budget status) (hcloses : c.Closes budget) :
      EndsWith output (.failure (.diagnostic status (Utf8.lossy c.errors)))
  | done (hexits : c.Exits budget (some 0)) (hcloses : c.Closes budget) :
      EndsWith output (.success output)

end Course

namespace Run

variable {budget : Nat} {output : SystemString} {c : Course}

-- ============================================================== settling

theorem toNat_reported (budget : Nat) :
    (reported budget).toNat = min (budget / 10 ^ 6) (2 ^ 64 - 1) := by
  unfold reported longestReported
  rw [UInt64.toNat_ofNat']
  exact Nat.mod_eq_of_lt (by omega)

/-- What is overdue is not lost, and has not exited or not closed its
streams in time. -/
theorem Overdue.missed (h : Overdue budget c) :
    (∀ fault, ¬ c.IsLost budget fault)
      ∧ ((∀ status, ¬ c.Exits budget status) ∨ ¬ c.Closes budget) := by
  rcases h with hlate | ⟨⟨t, status, hend⟩, hopen⟩
  · constructor
    · intro fault ⟨t, hend, ht⟩
      exact absurd (hlate t _ hend) (Nat.not_lt.2 ht)
    · left
      intro status ⟨t, hend, ht⟩
      exact absurd (hlate t _ hend) (Nat.not_lt.2 ht)
  · constructor
    · intro fault ⟨t', hend', _⟩
      rw [hend] at hend'
      cases hend'
    · right
      intro ⟨t', hclosed, ht'⟩
      have hin : inTime? budget c.closed = some t' :=
        Option.filter_eq_some_iff.2 ⟨hclosed, decide_eq_true ht'⟩
      rw [hopen] at hin
      cases hin

/-- What an engine has to say of how it ended is one of the rules. -/
theorem endsWith_verdict {status : Option Int}
    (hexits : c.Exits budget status) (hcloses : c.Closes budget) :
    c.EndsWith budget output (verdict output status c.errors) := by
  unfold verdict
  split
  next hzero =>
    rw [hzero] at hexits
    exact .done hexits hcloses
  next hstatus => exact .refused hstatus hexits hcloses

/-- What becomes of an engine is by one of the rules. -/
theorem endsWith_settle (budget : Nat) (output : SystemString) (c : Course) :
    c.EndsWith budget output (settle budget output c).1 := by
  rcases settle_cases budget output c with
    ⟨hoverdue, h⟩ | ⟨t, fault, hend, ht, h⟩
    | ⟨t, status, t', hend, ht, hclosed, ht', h⟩
  · obtain ⟨hlost, hmissed⟩ := hoverdue.missed
    rw [h]
    exact .late hlost hmissed (toNat_reported budget)
  · rw [h]
    exact .lost ⟨t, hend, ht⟩
  · rw [h]
    exact endsWith_verdict ⟨t, hend, ht⟩ ⟨t', hclosed, ht'⟩

/-- An engine that has exited and closed its streams in time is taken at
its word. -/
theorem settle_of_exits {status : Option Int}
    (hexits : c.Exits budget status) (hcloses : c.Closes budget) :
    (settle budget output c).1 = verdict output status c.errors := by
  obtain ⟨t, hend, ht⟩ := hexits
  obtain ⟨t', hclosed, ht'⟩ := hcloses
  have hin : inTime? budget c.closed = some t' :=
    Option.filter_eq_some_iff.2 ⟨hclosed, decide_eq_true ht'⟩
  unfold settle
  simp only [hend, if_neg (Nat.not_lt.2 ht), hin]
  rfl

/-- Each rule says what becomes of the engine. -/
theorem settle_of_endsWith {outcome : Outcome}
    (h : c.EndsWith budget output outcome) :
    (settle budget output c).1 = outcome := by
  cases h with
  | lost hlost =>
      obtain ⟨t, hend, ht⟩ := hlost
      unfold settle
      simp only [hend, if_neg (Nat.not_lt.2 ht)]
      rfl
  | late hlost hmissed htold =>
      rename_i told
      -- The two other ends of a course are excluded by what was missed.
      rcases settle_cases budget output c with
        ⟨_, hs⟩ | ⟨t, fault, hend, ht, _⟩
        | ⟨t, status, t', hend, ht, hclosed, ht', _⟩
      · have hsame : reported budget = told := by
          apply UInt64.toNat_inj.1
          rw [toNat_reported, htold]
        rw [hs, hsame]
      · exact absurd ⟨t, hend, ht⟩ (hlost fault)
      · rcases hmissed with hnot | hnot
        · exact absurd ⟨t, hend, ht⟩ (hnot status)
        · exact absurd ⟨t', hclosed, ht'⟩ hnot
  | refused hstatus hexits hcloses =>
      rw [settle_of_exits hexits hcloses]
      exact if_neg hstatus
  | done hexits hcloses =>
      rw [settle_of_exits hexits hcloses]
      exact if_pos rfl

/-- No file is left at the output of an engine that ran out of time. -/
theorem isFile_of_timeout {told : UInt64}
    (h : (settle budget output c).1 = .failure (.timeout told)) :
    (settle budget output c).2.2.isFile output = false := by
  rcases settle_cases budget output c with
    ⟨_, hs⟩ | ⟨_, _, _, _, hs⟩ | ⟨_, status, _, _, _, _, _, hs⟩
  · rw [hs]
    exact FileSystem.isFile_remove _ output
  · rw [hs] at h
    cases h
  · rw [hs] at h
    exact absurd h (verdict_ne_timeout output status _ told)

-- ================================================================== runs

/-- What a run ends with, by whether there was room for its output and
how its engine started. -/
inductive Ends (o : EngineOptions) (output : SystemString)
    (room : Option (SystemString × SystemFault))
    (started : Except SystemFault Course) : Outcome → Prop where
  | noRoom {dir : SystemString} {fault : SystemFault}
      (hroom : room = some (dir, fault)) :
      Ends o output room started
        (.failure (.internal (Obstacle.noDirectory dir fault).message))
  | noStart {fault : SystemFault} (hroom : room = none)
      (hstarted : started = .error fault) :
      Ends o output room started
        (.failure (.internal (Obstacle.noStart o.engine fault).message))
  | ran {c : Course} {outcome : Outcome} (hroom : room = none)
      (hstarted : started = .ok c)
      (hends : c.EndsWith o.budget output outcome) :
      Ends o output room started outcome

end Run

namespace Program

variable (h : Host) (o : EngineOptions) (source : SystemString) (p : Program)
  (output : SystemString) (fs : FileSystem)

/-- How the engine of a run starts, once there is room for its output. -/
def launch : Except SystemFault Course :=
  h.start o.engine ((o.arguments source p output).map .text) (fs.makeParent output).1

/-- Without room for its output a run ends where it began, on every
machine. -/
theorem render_of_noRoom {dir : SystemString} {fault : SystemFault}
    (hroom : (fs.makeParent output).2 = some (dir, fault)) :
    p.render h o source output fs
      = .unstarted (.noDirectory dir fault) (fs.makeParent output).1 := by
  rcases p.render_cases h o source output fs with
    ⟨dir', fault', hroom', hr⟩ | ⟨hroom', _⟩
  · rw [hroom] at hroom'
    cases hroom'
    exact hr
  · rw [hroom] at hroom'
    cases hroom'

/-- A run whose deadline the clock can show ends by one of the rules, and
no other rule applies to it. -/
theorem ends_render (hclock : (h.clock + o.budget) / 10 ^ 9 < clockLimit) :
    ∃ outcome, (p.render h o source output fs).result = .ok outcome
      ∧ ∀ other,
        Run.Ends o output (fs.makeParent output).2
            (p.launch h o source output fs) other
          ↔ other = outcome := by
  rcases p.render_cases h o source output fs with
    ⟨dir, fault, hroom, hr⟩
    | ⟨hroom, ⟨hbeyond, _⟩ | ⟨_, ⟨fault, hstart, hr⟩ | ⟨c, hstart, hr⟩⟩⟩
  · refine ⟨_, by rw [hr]; rfl, fun other => ?_⟩
    rw [hroom]
    constructor
    · intro hends
      cases hends with
      | noRoom hroom' => cases hroom'; rfl
      | noStart hroom' _ => cases hroom'
      | ran hroom' _ _ => cases hroom'
    · rintro rfl
      exact .noRoom rfl
  · exact absurd hclock (Nat.not_lt.2 hbeyond)
  · refine ⟨_, by rw [hr], fun other => ?_⟩
    rw [hroom, launch, hstart]
    constructor
    · intro hends
      cases hends with
      | noRoom hroom' => cases hroom'
      | noStart _ hstart' => cases hstart'; rfl
      | ran _ hstart' _ => cases hstart'
    · rintro rfl
      exact .noStart rfl rfl
  · refine ⟨_, by rw [hr], fun other => ?_⟩
    rw [hroom, launch, hstart]
    constructor
    · intro hends
      cases hends with
      | noRoom hroom' => cases hroom'
      | noStart _ hstart' => cases hstart'
      | ran _ hstart' hends =>
          cases hstart'
          exact (Run.settle_of_endsWith hends).symm
    · rintro rfl
      exact .ran rfl rfl (Run.endsWith_settle o.budget output c)

/-- A run whose deadline the clock can show has an outcome, and this is
told by the rules: an internal failure where no room could be made for
the output (then no engine is to be started, on whatever machine), where
the engine did not start or the wait for it failed in time; a timeout
with its budget where the engine has not exited or its streams are not
closed in time, and then no file is left at the output; a diagnostic with
status and errors where the engine refused; and else a success. -/
theorem render_ends_iff
    (hclock : (h.clock + o.budget) / 10 ^ 9 < clockLimit) :
    (∃ outcome, (p.render h o source output fs).result = .ok outcome)
      ∧ (∀ outcome, (p.render h o source output fs).result = .ok outcome
        ↔ Run.Ends o output (fs.makeParent output).2
            (p.launch h o source output fs) outcome)
      ∧ ((fs.makeParent output).2 ≠ none →
        (p.render h o source output fs).attempt = none
          ∧ ∀ h', p.render h' o source output fs
            = p.render h o source output fs)
      ∧ ∀ told,
        (p.render h o source output fs).result
            = .ok (.failure (.timeout told)) →
          (p.render h o source output fs).files.isFile output = false := by
  obtain ⟨outcome, hresult, hends⟩ := p.ends_render h o source output fs
    hclock
  refine ⟨⟨outcome, hresult⟩, ?_, ?_, ?_⟩
  · intro other
    rw [hends, hresult, Except.ok.injEq]
    exact eq_comm
  · intro hroom
    obtain ⟨⟨dir, fault⟩, hfault⟩ := Option.ne_none_iff_exists'.1 hroom
    rw [p.render_of_noRoom h o source output fs hfault]
    refine ⟨rfl, fun h' => ?_⟩
    exact p.render_of_noRoom h' o source output fs hfault
  · intro told htimeout
    rcases p.render_cases h o source output fs with
      ⟨dir, fault, _, hr⟩
      | ⟨_, ⟨_, hr⟩ | ⟨_, ⟨fault, _, hr⟩ | ⟨c, _, hr⟩⟩⟩
    · rw [hr] at htimeout
      cases htimeout
    · rw [hr] at htimeout
      cases htimeout
    · rw [hr] at htimeout
      cases htimeout
    · rw [hr] at htimeout ⊢
      exact Run.isFile_of_timeout (Except.ok.inj htimeout)

/-- A program that is ended by a signal, with bytes on its error stream
that are no text. -/
def brittle (fs : FileSystem) : Course :=
  ⟨some (5, .exited none), some 7, [], [104, 255], fun _ => fs⟩

/-- A machine that runs every program so. -/
def brittleHost : Host := ⟨0, 0, fun _ _ fs => .ok (brittle fs)⟩

/-- Options of an engine that gets a tenth of a second. -/
def hasty : EngineOptions :=
  ⟨"ffmpeg", 100000000, "libx264", "slow", 18, true⟩

/-- A signal is reported without a status, and errors that are no text as
far as they are. -/
theorem render_ends_signalled :
    (render brittleHost hasty "v.mp4" .passthrough "w.mp4" ⟨[], []⟩).result
      = .ok (.failure (.diagnostic none "h\uFFFD")) := by
  have hclock : (brittleHost.clock + hasty.budget) / 10 ^ 9 < clockLimit := by
    decide
  have htext : Utf8.lossy [104, 255] = "h\uFFFD" := by decide +kernel
  have hstatus : (none : Option Int) ≠ some 0 := nofun
  have hends : (brittle ⟨[], []⟩).EndsWith hasty.budget "w.mp4"
      (.failure (.diagnostic none (Utf8.lossy [104, 255]))) :=
    .refused hstatus ⟨5, rfl, by decide⟩ ⟨7, rfl, by decide⟩
  rw [htext] at hends
  apply ((render_ends_iff brittleHost hasty "v.mp4" .passthrough "w.mp4"
    ⟨[], []⟩ hclock).2.1 _).2
  exact .ran (by decide +kernel) (by rfl) hends

end Program

end TimedOverlay
