/-
Budgets and the clock.

A budget is a number of seconds below 2^64. The settings may hold any of
them, and the command line takes any of them (`seconds?_toString`). Two
things are computed from it. What a report tells of it is held at the most
that can be told. But the deadline is the plain sum with the clock, and a
clock counts no further than 2^63 seconds: a run whose sum is beyond that
ends without an outcome, before its engine is started, and in no other way
can it end without one (`run_returns_iff`).

The clock counts whole seconds and a rest below one. A budget has no rest,
so the seconds of the sum are the sum of the seconds.
-/
import TimedOverlay.Proofs.Console.Drawing
import TimedOverlay.Proofs.Decimal.Digits
import TimedOverlay.Proofs.Engine.Classification

namespace TimedOverlay

-- ================================================================== runs

/-- The budget that is told of an engine that ran out of time. -/
theorem Run.toNat_of_settle_timeout {budget : Nat} {output : SystemString}
    {c : Course} {told : UInt64}
    (h : (settle budget output c).1 = .failure (.timeout told)) :
    told.toNat = min (budget / 10 ^ 6) (2 ^ 64 - 1) := by
  rcases settle_cases budget output c with
    ⟨_, hs⟩ | ⟨_, _, _, _, hs⟩ | ⟨_, status, _, _, _, _, _, hs⟩
  · rw [hs] at h
    cases h
    exact toNat_reported budget
  · rw [hs] at h
    cases h
  · rw [hs] at h
    exact absurd h (verdict_ne_timeout output status _ told)

namespace Program

variable (h : Host) (o : EngineOptions) (source : SystemString) (p : Program)
  (output : SystemString) (fs : FileSystem)

/-- A run has an outcome if there is no room for its output, for then no
deadline is needed, or if the clock can show its deadline. -/
theorem exists_outcome_iff :
    (∃ outcome, (p.render h o source output fs).result = .ok outcome)
      ↔ (fs.makeParent output).2 ≠ none
        ∨ (h.clock + o.budget) / 10 ^ 9 < clockLimit := by
  rcases p.render_cases h o source output fs with
    ⟨dir, fault, hroom, hr⟩
    | ⟨hroom, ⟨hbeyond, hr⟩ | ⟨hclock, ⟨fault, _, hr⟩ | ⟨c, _, hr⟩⟩⟩
  · rw [hr, hroom]
    exact iff_of_true ⟨_, rfl⟩ (.inl nofun)
  · rw [hr, hroom]
    refine iff_of_false nofun ?_
    rintro (hsome | hclock)
    · exact hsome rfl
    · exact absurd hclock (Nat.not_lt.2 hbeyond)
  · rw [hr]
    exact iff_of_true ⟨_, rfl⟩ (.inr hclock)
  · rw [hr]
    exact iff_of_true ⟨_, rfl⟩ (.inr hclock)

variable {h o source p output fs}

/-- A run without an outcome has made room for its output, and that is
all. -/
theorem render_of_abort {cause : Abort}
    (habort : (p.render h o source output fs).result = .error cause) :
    p.render h o source output fs
      = ⟨.error .deadlineBeyondClock, none, 0, (fs.makeParent output).1⟩ := by
  rcases p.render_cases h o source output fs with
    ⟨dir, fault, _, hr⟩
    | ⟨_, ⟨_, hr⟩ | ⟨_, ⟨fault, _, hr⟩ | ⟨c, _, hr⟩⟩⟩
  · rw [hr] at habort
    cases habort
  · exact hr
  · rw [hr] at habort
    cases habort
  · rw [hr] at habort
    cases habort

/-- The budget that is told of a run that ran out of time. -/
theorem toNat_of_timeout {told : UInt64}
    (htimeout : (p.render h o source output fs).result
      = .ok (.failure (.timeout told))) :
    told.toNat = min (o.budget / 10 ^ 6) (2 ^ 64 - 1) := by
  rcases p.render_cases h o source output fs with
    ⟨dir, fault, _, hr⟩
    | ⟨_, ⟨_, hr⟩ | ⟨_, ⟨fault, _, hr⟩ | ⟨c, _, hr⟩⟩⟩
  · rw [hr] at htimeout
    cases htimeout
  · rw [hr] at htimeout
    cases htimeout
  · rw [hr] at htimeout
    cases htimeout
  · rw [hr] at htimeout
    exact Run.toNat_of_settle_timeout (Except.ok.inj htimeout)

end Program

namespace Console

-- =============================================================== seconds

/-- Every number of seconds that the command line can hold is taken. -/
theorem seconds?_toString (n : UInt64) :
    seconds? (toString n.toNat) = some n := by
  have hchars : (toString n.toNat).toList = Nat.toDigits 10 n.toNat := by
    rw [Nat.toString_eq_repr, Nat.toList_repr]
  have hdigits : (Nat.toDigits 10 n.toNat).all Char.isDigit = true :=
    List.all_eq_true.2 (Decimal.digits_toDigits n.toNat)
  have hvalue := Decimal.digitsValue_toDigits n.toNat
  have hne : Nat.toDigits 10 n.toNat ≠ [] := Nat.toDigits_ne_nil
  unfold seconds?
  rw [hchars]
  generalize Nat.toDigits 10 n.toNat = ds at hdigits hvalue hne
  dsimp only
  split
  next rest =>
    cases hdigits
  next =>
    rw [if_pos ⟨hne, hdigits, hvalue ▸ n.toNat_lt⟩, hvalue,
      UInt64.ofNat_toNat]

/-- The seconds that a drawing may take: those that were asked for, or
else those of the settings. -/
def secondsFor (s : Settings) (timeout : Option UInt64) : Nat :=
  (timeout.getD s.engine.budget).toNat

theorem budget_engineOptions (s : Settings) (timeout : Option UInt64) :
    (engineOptions s timeout).budget = 10 ^ 9 * secondsFor s timeout := by
  cases timeout with
  | none => rfl
  | some seconds => rfl

-- ============================================================== deadlines

/-- The command line takes every number of seconds below 2^64 as a budget.
A run with such a budget, or with one from the settings, has an outcome
exactly if no room can be made for its output, or the seconds of the clock
and those of the budget come to less than 2^63 together. Without an outcome its engine
is not started, and only the room for its output has been made. A timeout
is told in milliseconds, as far as these can be told. -/
theorem run_returns_iff (h : Host) (s : Settings) (timeout : Option UInt64)
    (source : SystemString) (p : Program) (output : SystemString) (fs : FileSystem) :
    (∀ n : UInt64, seconds? (toString n.toNat) = some n)
      ∧ ((∃ outcome,
          (p.render h (engineOptions s timeout) source output fs).result
            = .ok outcome)
        ↔ (fs.makeParent output).2 ≠ none
          ∨ h.clock / 10 ^ 9 + secondsFor s timeout < 2 ^ 63)
      ∧ (∀ cause,
        (p.render h (engineOptions s timeout) source output fs).result
            = .error cause →
          (p.render h (engineOptions s timeout) source output fs).attempt
              = none
            ∧ (p.render h (engineOptions s timeout) source output fs).files
              = (fs.makeParent output).1)
      ∧ ∀ told,
        (p.render h (engineOptions s timeout) source output fs).result
            = .ok (.failure (.timeout told)) →
          told.toNat = min (1000 * secondsFor s timeout) (2 ^ 64 - 1) := by
  have hseconds : (h.clock + (engineOptions s timeout).budget) / 10 ^ 9
      = h.clock / 10 ^ 9 + secondsFor s timeout := by
    rw [budget_engineOptions]
    exact Nat.add_mul_div_left _ _ (by decide)
  refine ⟨seconds?_toString, ?_, ?_, ?_⟩
  · rw [Program.exists_outcome_iff, hseconds]
    rfl
  · intro cause habort
    rw [Program.render_of_abort habort]
    exact ⟨rfl, rfl⟩
  · intro told htimeout
    have hmillis : 10 ^ 9 * secondsFor s timeout / 10 ^ 6
        = 1000 * secondsFor s timeout := by
      omega
    rw [Program.toNat_of_timeout htimeout, budget_engineOptions, hmillis]

/-- A budget of which a clock can show the end, but of which not all
milliseconds can be told. -/
theorem run_returns_untold :
    ∃ told, (Program.passthrough.render Export.idleHost
          (engineOptions unset (some 20000000000000000)) "v.mp4" "o.mp4"
          desk).result = .ok (.failure (.timeout told))
      ∧ told.toNat = 2 ^ 64 - 1 := by
  obtain ⟨-, -, -, htold⟩ := run_returns_iff Export.idleHost unset
    (some 20000000000000000) "v.mp4" .passthrough "o.mp4" desk
  refine ⟨_, by rfl, ?_⟩
  exact htold _ (by rfl)

/-- Settings with the largest budget. -/
def endless : String :=
  "\x7b\"ffmpeg_path\": \"./e.sh\", "
    ++ "\"time_budget_secs\": 18446744073709551615\x7d"

/-- The settings that this text tells. -/
def patient : EngineSettings :=
  { EngineSettings.standard with
    engine := "./e.sh", budget := 18446744073709551615 }

/-- The largest budget is read from a file and taken from the command
line. Either way the run has no outcome, on a machine whose programs all
end well after some milliseconds; with the usual budget it is a success. -/
theorem outcome_missing :
    EngineSettings.record.ofText endless = .ok patient
      ∧ (Program.passthrough.render (answering 0) (.ofSettings patient)
          "v.mp4" "o.mp4" desk).result = .error .deadlineBeyondClock
      ∧ Request.ofArguments ["render", "job.json", "--video", "v.mp4",
          "--timeout", "18446744073709551615"]
        = .ok ⟨none, false, .render "job.json" "v.mp4" none
            (some 18446744073709551615) false none⟩
      ∧ (Program.passthrough.render (answering 0)
          (engineOptions unset (some 18446744073709551615)) "v.mp4" "o.mp4"
          desk).result = .error .deadlineBeyondClock
      ∧ (Program.passthrough.render (answering 0)
          (engineOptions unset none) "v.mp4" "o.mp4" desk).result
        = .ok (.success "o.mp4") := by
  have hscan : Json.Text.scan endless
      = ⟨.object [(.plain "ffmpeg_path", .string (.plain "./e.sh")),
          (.plain "time_budget_secs",
            .number (some (.integer 18446744073709551615)))]
          none, false⟩ := by
    cbv
  refine ⟨?_, by rfl, by rfl, by rfl, by rfl⟩
  unfold Json.Record.ofText Json.readText
  rw [hscan]
  rfl

end Console

end TimedOverlay
