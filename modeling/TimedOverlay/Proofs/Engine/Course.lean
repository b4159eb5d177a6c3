/-
What can become of a run.

An engine that has been started is overdue, or the wait for it is lost,
or it has ended and closed its streams in time; `settle_cases` says what
comes of each. A run as a whole ends at one of four places, and
`Program.render_cases` names them with all that led there, so that no
statement about runs has to take `render` apart again.
-/
import TimedOverlay.Engine.Run

namespace TimedOverlay

namespace Run

-- =============================================================== settling

/-- The engine misses its deadline: it has not ended by then, or its
streams have not been closed. A lost wait ends by itself. -/
def Overdue (budget : Nat) (c : Course) : Prop :=
  (∀ t ending, c.ending = some (t, ending) → budget < t)
    ∨ (∃ t status, c.ending = some (t, .exited status))
        ∧ inTime? budget c.closed = none

/-- What the engine itself has to say of how it ended. -/
def verdict (output : SystemString) (status : Option Int)
    (errors : List UInt8) : Outcome :=
  if status = some 0 then .success output
  else .failure (.diagnostic status (Utf8.lossy errors))

/-- An engine is overdue, or lost, or done. -/
theorem settle_cases (budget : Nat) (output : SystemString) (c : Course) :
    (Overdue budget c
      ∧ settle budget output c
        = (.failure (.timeout (reported budget)), budget,
            (c.files budget).remove output))
      ∨ (∃ t fault, c.ending = some (t, .lost fault) ∧ t ≤ budget
          ∧ settle budget output c
            = (.obstacle (.noWait fault), t, c.files t))
      ∨ ∃ t status t', c.ending = some (t, .exited status) ∧ t ≤ budget
          ∧ c.closed = some t' ∧ t' ≤ budget
          ∧ settle budget output c
            = (verdict output status c.errors, max t t',
                c.files (max t t')) := by
  unfold settle
  cases hend : c.ending with
  | none =>
      refine .inl ⟨.inl ?_, rfl⟩
      rw [hend]
      rintro t ending ⟨⟩
  | some p =>
      obtain ⟨t, ending⟩ := p
      by_cases hlate : budget < t
      · refine .inl ⟨.inl ?_, if_pos hlate⟩
        rw [hend]
        rintro _ _ ⟨⟩
        exact hlate
      · simp only [if_neg hlate]
        have ht : t ≤ budget := Nat.not_lt.1 hlate
        cases ending with
        | lost fault => exact .inr (.inl ⟨t, fault, rfl, ht, rfl⟩)
        -- The program has ended in time; now its streams decide.
        | exited status =>
            dsimp only
            cases hclosed : inTime? budget c.closed with
            | none => exact .inl ⟨.inr ⟨⟨t, status, hend⟩, hclosed⟩, rfl⟩
            | some t' =>
                obtain ⟨hc, ht'⟩ := Option.filter_eq_some_iff.1 hclosed
                exact .inr (.inr ⟨t, status, t', rfl, ht, hc,
                  of_decide_eq_true ht', rfl⟩)

theorem verdict_ne_timeout (output : SystemString) (status : Option Int)
    (errors : List UInt8) (b : UInt64) :
    verdict output status errors ≠ .failure (.timeout b) := by
  unfold verdict
  split
  next => exact nofun
  next => exact nofun

/-- The files are those of a moment of the course, unless the time ran
out; then the output is taken from those of the deadline. -/
theorem settle_files (budget : Nat) (output : SystemString) (c : Course) :
    ((settle budget output c).1 = .failure (.timeout (reported budget))
        ∧ (settle budget output c).2.2 = (c.files budget).remove output)
      ∨ ((settle budget output c).1 ≠ .failure (.timeout (reported budget))
        ∧ ∃ t, (settle budget output c).2.2 = c.files t) := by
  rcases settle_cases budget output c with
    ⟨_, h⟩ | ⟨t, fault, _, _, h⟩ | ⟨t, status, t', _, _, _, _, h⟩
  · rw [h]
    exact .inl ⟨rfl, rfl⟩
  · rw [h]
    exact .inr ⟨nofun, t, rfl⟩
  · rw [h]
    exact .inr ⟨verdict_ne_timeout _ _ _ _, max t t', rfl⟩

end Run

-- ================================================================ running

/-- A run ends where no room can be made for its output, where its
deadline is beyond the clock, where the engine does not start, or with
what becomes of the engine. -/
theorem Program.render_cases (h : Host) (o : EngineOptions)
    (source : SystemString) (p : Program) (output : SystemString)
    (fs : FileSystem) :
    (∃ dir fault, (fs.makeParent output).2 = some (dir, fault)
      ∧ p.render h o source output fs
        = .unstarted (.noDirectory dir fault) (fs.makeParent output).1)
      ∨ (fs.makeParent output).2 = none
        ∧ (clockLimit ≤ (h.clock + o.budget) / 10 ^ 9
            ∧ p.render h o source output fs
              = ⟨.error .deadlineBeyondClock, none, 0,
                  (fs.makeParent output).1⟩
          ∨ (h.clock + o.budget) / 10 ^ 9 < clockLimit
            ∧ ((∃ fault,
                h.start o.engine ((o.arguments source p output).map .text)
                    (fs.makeParent output).1
                  = .error fault
                ∧ p.render h o source output fs
                  = ⟨.ok (.obstacle (.noStart o.engine fault)),
                      some (o.arguments source p output), 0,
                      (fs.makeParent output).1⟩)
              ∨ ∃ c,
                h.start o.engine ((o.arguments source p output).map .text)
                    (fs.makeParent output).1
                  = .ok c
                ∧ p.render h o source output fs
                  = ⟨.ok (Run.settle o.budget output c).1,
                      some (o.arguments source p output),
                      (Run.settle o.budget output c).2.1,
                      (Run.settle o.budget output c).2.2⟩)) := by
  unfold render
  rcases fs.makeParent output with ⟨made, _ | ⟨dir, fault⟩⟩
  · refine .inr ⟨rfl, ?_⟩
    by_cases hclock : clockLimit ≤ (h.clock + o.budget) / 10 ^ 9
    · exact .inl ⟨hclock, by simp only [if_pos hclock]⟩
    · refine .inr ⟨Nat.not_le.1 hclock, ?_⟩
      simp only [if_neg hclock]
      cases h.start o.engine ((o.arguments source p output).map .text) made with
      | error fault => exact .inl ⟨fault, rfl, rfl⟩
      | ok c => exact .inr ⟨c, rfl, rfl⟩
  · exact .inl ⟨dir, fault, rfl, rfl⟩

/-- A run either ends before its engine does anything, and then not
because the time ran out, or with what becomes of the engine. -/
theorem Program.render_files (h : Host) (o : EngineOptions)
    (source : SystemString) (p : Program) (output : SystemString)
    (fs : FileSystem) :
    ((p.render h o source output fs).files = (fs.makeParent output).1
      ∧ (p.render h o source output fs).result
        ≠ .ok (.failure (.timeout (Run.reported o.budget))))
      ∨ ∃ c,
        h.start o.engine ((o.arguments source p output).map .text)
            (fs.makeParent output).1
          = .ok c
        ∧ (p.render h o source output fs).result
          = .ok (Run.settle o.budget output c).1
        ∧ (p.render h o source output fs).files
          = (Run.settle o.budget output c).2.2 := by
  rcases p.render_cases h o source output fs with
    ⟨dir, fault, _, hr⟩
    | ⟨_, ⟨_, hr⟩ | ⟨_, ⟨fault, _, hr⟩ | ⟨c, hstart, hr⟩⟩⟩
  · rw [hr]
    exact .inl ⟨rfl, nofun⟩
  · rw [hr]
    exact .inl ⟨rfl, nofun⟩
  · rw [hr]
    exact .inl ⟨rfl, nofun⟩
  · rw [hr]
    exact .inr ⟨c, hstart, rfl, rfl⟩

end TimedOverlay
