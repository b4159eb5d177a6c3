/-
What is made of a run: its report, its exit code, its files.

A run that was not aborted has an outcome, and its report is written
before anything is said of it. Where that fails, nothing else is told. It
fails where the report names something that is no text
(`Report.exists_toValue?_iff`) or no file can be written at its path.
`Answers` names the three ways in which a run is answered with all that
is known of each; what they have in common follows from it: the exit code
is zero exactly if the video was drawn and the report could be written
(`Answers.code_eq_zero_iff`), and the report is there for every outcome
that can be told (`Answers.reported`).
-/
import TimedOverlay.Console.Reply
import TimedOverlay.Proofs.Storage.Places

namespace TimedOverlay.Console

-- =============================================================== reports

namespace Report

variable (r : Report)

/-- All that a report names is text: the job, the source, and the video if
there is one. -/
def Tellable : Prop :=
  r.job.IsText ∧ r.source.IsText
    ∧ ∀ path, r.outcome = .success path → path.IsText

/-- A report can be written down exactly if all that it names is text. -/
theorem exists_toValue?_iff : (∃ v, r.toValue? = some v) ↔ r.Tellable := by
  constructor
  · rintro ⟨v, hv⟩
    obtain ⟨job, hjob, hv⟩ := Option.bind_eq_some_iff.1 hv
    obtain ⟨source, hsource, hv⟩ := Option.bind_eq_some_iff.1 hv
    obtain ⟨value, houtcome, -⟩ := Option.bind_eq_some_iff.1 hv
    refine ⟨Option.isSome_of_eq_some hjob, Option.isSome_of_eq_some hsource,
      ?_⟩
    intro path hpath
    rw [hpath] at houtcome
    obtain ⟨text, htext, -⟩ := Option.bind_eq_some_iff.1 houtcome
    exact Option.isSome_of_eq_some htext
  · rintro ⟨hjob, hsource, hpath⟩
    obtain ⟨job, hjob⟩ := Option.isSome_iff_exists.1 hjob
    obtain ⟨source, hsource⟩ := Option.isSome_iff_exists.1 hsource
    obtain ⟨value, hvalue⟩ : ∃ v, r.outcome.toValue? = some v := by
      cases houtcome : r.outcome with
      | success path =>
          obtain ⟨text, htext⟩ :=
            Option.isSome_iff_exists.1 (hpath path houtcome)
          exact ⟨_, Option.bind_eq_some_iff.2 ⟨text, htext, rfl⟩⟩
      | failure f => exact ⟨_, rfl⟩
    unfold toValue?
    rw [hjob, hsource, hvalue]
    exact ⟨_, rfl⟩

end Report

/-- A report that was written is found at its path, and no place but its
own has changed. -/
theorem of_writeReport {r : Report} {report : Option SystemString}
    {fs left : FileSystem} (h : writeReport r report fs = .ok left) :
    left.working = fs.working
      ∧ (∀ l, left.get? l = fs.get? l
        ∨ ∃ p, report = some p ∧ fs.locateFile p = .ok l)
      ∧ ∀ p, report = some p →
        fs.Writable p
          ∧ ∃ v, r.toValue? = some v
            ∧ (left.at? p = some .device
              ∨ ∃ executable, left.at? p
                = some (.file (Utf8.encode v.text) executable)) := by
  unfold writeReport Report.bytes? at h
  cases report with
  | none =>
      cases h
      exact ⟨rfl, fun _ => .inl rfl, nofun⟩
  | some p =>
      dsimp only at h
      cases hvalue : r.toValue? with
      | none =>
          rw [hvalue] at h
          cases h
      | some v =>
          rw [hvalue] at h
          dsimp only [Option.map] at h
          by_cases hwritable : fs.Writable p
          · obtain ⟨_, hwrite, hworking, hother, hplace⟩ :=
              FileSystem.write_of_writable hwritable (Utf8.encode v.text)
            rw [hwrite] at h
            cases h
            refine ⟨hworking, ?_, ?_⟩
            · intro l
              by_cases hl : fs.locateFile p = .ok l
              · exact .inr ⟨p, rfl, hl⟩
              · exact .inl (hother l hl)
            · intro q hq
              cases hq
              exact ⟨hwritable, v, rfl, hplace⟩
          · obtain ⟨fault, hwrite⟩ :=
              FileSystem.write_of_not_writable hwritable
                (Utf8.encode v.text)
            rw [hwrite] at h
            cases h

/-- A report that was not written names something that is no text, or
there is no way to write a file at its path. -/
theorem exists_of_writeReport_error {r : Report}
    {report : Option SystemString} {fs : FileSystem} {cause : ReportError}
    (h : writeReport r report fs = .error cause) :
    ∃ p, report = some p ∧ ¬ (r.Tellable ∧ fs.Writable p) := by
  unfold writeReport Report.bytes? at h
  cases report with
  | none => cases h
  | some p =>
      refine ⟨p, rfl, ?_⟩
      rintro ⟨htellable, hwritable⟩
      obtain ⟨v, hvalue⟩ := r.exists_toValue?_iff.2 htellable
      obtain ⟨left, hwrite, -⟩ := FileSystem.write_of_writable hwritable
        (Utf8.encode v.text)
      rw [hvalue] at h
      dsimp only [Option.map] at h
      rw [hwrite] at h
      cases h

-- =============================================================== answers

/-- How a run is answered, given what its report is for each outcome. -/
inductive Answers (rep : Outcome → Report) (report : Option SystemString)
    (run : Run) (reply : Reply) : Prop where
  | aborted (hresult : run.result = .error .deadlineBeyondClock)
      (hfiles : reply.files = run.files) (hcode : reply.code = 101)
      (hattempt : reply.attempt = run.attempt)
  | unreported (outcome : Outcome) (cause : ReportError)
      (hresult : run.result = .ok outcome)
      (hwrite : writeReport (rep outcome) report run.files = .error cause)
      (hfiles : reply.files = run.files) (hcode : reply.code = 1)
      (hattempt : reply.attempt = run.attempt)
  | told (outcome : Outcome) (hresult : run.result = .ok outcome)
      (hwrite : writeReport (rep outcome) report run.files
        = .ok reply.files)
      (hcode : reply.code = if outcome.isSuccess then 0 else 1)
      (hattempt : reply.attempt = run.attempt)

namespace Answers

variable {rep : Outcome → Report} {report : Option SystemString} {run : Run}
  {reply : Reply}

theorem attempt_eq (h : Answers rep report run reply) :
    reply.attempt = run.attempt := by
  cases h with
  | aborted hresult hfiles hcode hattempt => exact hattempt
  | unreported outcome cause hresult hwrite hfiles hcode hattempt =>
      exact hattempt
  | told outcome hresult hwrite hcode hattempt => exact hattempt

/-- The exit code is zero exactly if the video was drawn and its report,
if one is asked for, could be written down and put in its place. -/
theorem code_eq_zero_iff (h : Answers rep report run reply) :
    reply.code = 0
      ↔ ∃ path, run.result = .ok (.success path)
        ∧ ∀ p, report = some p →
          (rep (.success path)).Tellable ∧ run.files.Writable p := by
  cases h with
  | aborted hresult hfiles hcode hattempt =>
      rw [hcode, hresult]
      constructor
      · intro hzero
        cases hzero
      · intro ⟨path, hsuccess, _⟩
        cases hsuccess
  | unreported outcome cause hresult hwrite hfiles hcode hattempt =>
      rw [hcode, hresult]
      constructor
      · intro hzero
        cases hzero
      · intro ⟨path, hsuccess, hwritten⟩
        obtain rfl := Except.ok.inj hsuccess
        obtain ⟨p, hp, hnot⟩ := exists_of_writeReport_error hwrite
        exact absurd (hwritten p hp) hnot
  | told outcome hresult hwrite hcode hattempt =>
      have hwritten (p : SystemString) (hp : report = some p) :
          (rep outcome).Tellable ∧ run.files.Writable p := by
        obtain ⟨hwritable, v, hvalue, -⟩ := (of_writeReport hwrite).2.2 p hp
        exact ⟨(rep outcome).exists_toValue?_iff.1 ⟨v, hvalue⟩, hwritable⟩
      rw [hcode, hresult]
      cases outcome with
      | success path =>
          exact ⟨fun _ => ⟨path, rfl, hwritten⟩, fun _ => rfl⟩
      | failure f =>
          constructor
          · intro hzero
            cases hzero
          · intro ⟨path, hsuccess, _⟩
            cases hsuccess

/-- An answer changes no place but that of the report. -/
theorem files_eq (h : Answers rep report run reply) :
    reply.files.working = run.files.working
      ∧ ∀ l, reply.files.get? l = run.files.get? l
        ∨ ∃ p, report = some p ∧ run.files.locateFile p = .ok l := by
  cases h with
  | aborted hresult hfiles hcode hattempt =>
      rw [hfiles]
      exact ⟨rfl, fun _ => .inl rfl⟩
  | unreported outcome cause hresult hwrite hfiles hcode hattempt =>
      rw [hfiles]
      exact ⟨rfl, fun _ => .inl rfl⟩
  | told outcome hresult hwrite hcode hattempt =>
      obtain ⟨hworking, hplaces, -⟩ := of_writeReport hwrite
      exact ⟨hworking, hplaces⟩

/-- Whatever comes of a run, its report is written if it can be. -/
theorem reported (h : Answers rep report run reply) {outcome : Outcome}
    {p : SystemString} (hresult : run.result = .ok outcome)
    (hp : report = some p) (htellable : (rep outcome).Tellable)
    (hwritable : run.files.Writable p) :
    ∃ v, (rep outcome).toValue? = some v
      ∧ (reply.files.at? p = some .device
        ∨ ∃ executable, reply.files.at? p
          = some (.file (Utf8.encode v.text) executable)) := by
  cases h with
  | aborted haborted hfiles hcode hattempt =>
      rw [hresult] at haborted
      cases haborted
  | unreported other cause hother hwrite hfiles hcode hattempt =>
      rw [hresult] at hother
      cases hother
      obtain ⟨q, hq, hnot⟩ := exists_of_writeReport_error hwrite
      rw [hp] at hq
      cases hq
      exact absurd ⟨htellable, hwritable⟩ hnot
  | told other hother hwrite hcode hattempt =>
      rw [hresult] at hother
      cases hother
      exact ((of_writeReport hwrite).2.2 p hp).2

/-- A report that names something that is no text is not written: the
exit code is one, and the files are as the run has left them. -/
theorem unwritten (h : Answers rep report run reply) {outcome : Outcome}
    {p : SystemString} (hresult : run.result = .ok outcome)
    (hp : report = some p) (huntold : ¬ (rep outcome).Tellable) :
    reply.code = 1 ∧ reply.files = run.files := by
  cases h with
  | aborted haborted hfiles hcode hattempt =>
      rw [hresult] at haborted
      cases haborted
  | unreported other cause hother hwrite hfiles hcode hattempt =>
      exact ⟨hcode, hfiles⟩
  | told other hother hwrite hcode hattempt =>
      rw [hresult] at hother
      cases hother
      obtain ⟨-, v, hvalue, -⟩ := (of_writeReport hwrite).2.2 p hp
      exact absurd ((rep outcome).exists_toValue?_iff.1 ⟨v, hvalue⟩) huntold

end Answers

end TimedOverlay.Console
