/-
What the windows of a list of times keep of it.

Windows and their ends are two ways to write the same times. The ends of
the windows of a list are the list itself, with the duration behind it if
a window was left open (`Window.ends_resolve`), and windows are those of
their ends (`Window.resolve_ends`). The list is read two times at a time,
so a list that leaves no window open can be read by itself and the rest
after it (`Window.resolve_append`).

No time is looked at on the way. These are laws of lists, and they hold
of times that are not a number, of negative ones, and of windows that end
before they start.
-/
import TimedOverlay.Window

namespace TimedOverlay.Window

variable (duration : Binary64)

/-- Windows are told by their ends. -/
theorem resolve_ends (ws : List Window) :
    resolve duration (ends ws) = ws := by
  induction ws with
  | nil => rfl
  | cons w ws ih =>
      show ⟨w.start, w.stop⟩ :: resolve duration (ends ws) = w :: ws
      rw [ih]

/-- The ends of the windows are the times. The duration is the end of the
last one if it was left open. -/
theorem ends_resolve (ts : List Binary64) :
    ends (resolve duration ts)
      = if ts.length % 2 = 0 then ts else ts ++ [duration] := by
  induction ts using resolve.induct with
  | case1 => rfl
  | case2 start => rfl
  | case3 start stop rest ih =>
      have hparity : (start :: stop :: rest).length % 2 = rest.length % 2 := by
        simp only [List.length_cons]
        omega
      rw [hparity]
      show start :: stop :: ends (resolve duration rest) = _
      rw [ih]
      split <;> rfl

/-- Times that come in pairs have the same windows whatever stands behind
them. -/
theorem resolve_append {us : List Binary64} (hpairs : us.length % 2 = 0)
    (vs : List Binary64) :
    resolve duration (us ++ vs)
      = resolve duration us ++ resolve duration vs := by
  induction us using resolve.induct with
  | case1 => rfl
  | case2 start => cases hpairs
  | case3 start stop rest ih =>
      have hrest : rest.length % 2 = 0 := by
        simp only [List.length_cons] at hpairs
        omega
      show ⟨start, stop⟩ :: resolve duration (rest ++ vs) = _
      rw [ih hrest]
      rfl

/-- The windows of times say all of them, and only them: nothing is
sorted, merged, held in range or left out. Each pair of times is read for
itself, and the duration is the end of the window that is left open. -/
theorem keeps_times :
    (∀ ts, ends (resolve duration ts)
      = if ts.length % 2 = 0 then ts else ts ++ [duration])
      ∧ ∀ us vs : List Binary64, us.length % 2 = 0 →
        resolve duration (us ++ vs)
          = resolve duration us ++ resolve duration vs :=
  ⟨ends_resolve duration, fun _ vs hpairs =>
    resolve_append duration hpairs vs⟩

/-- A time that is no number, a window that ends before it starts, a
negative time and one after the end of the video are kept as they are. -/
theorem keeps_times_unruly :
    [Binary64.nan, 5, 2, -1].length % 2 = 0
      ∧ resolve 9 ([Binary64.nan, 5, 2, -1] ++ [30])
        = [⟨.nan, 5⟩, ⟨2, -1⟩] ++ [⟨30, 9⟩]
      ∧ ends (resolve 9 ([Binary64.nan, 5, 2, -1] ++ [30]))
        = [.nan, 5, 2, -1, 30, 9] :=
  ⟨rfl, (keeps_times 9).2 [Binary64.nan, 5, 2, -1] [30] rfl,
    (keeps_times 9).1 ([Binary64.nan, 5, 2, -1] ++ [30])⟩

/-- Times that come in pairs leave nothing for the end of the video to
close. -/
theorem resolve_of_even (other : Binary64) {ts : List Binary64}
    (heven : ts.length % 2 = 0) :
    resolve duration ts = resolve other ts := by
  have hends : ends (resolve other ts) = ts := by
    rw [ends_resolve, if_pos heven]
  calc resolve duration ts
      = resolve duration (ends (resolve other ts)) := by rw [hends]
    _ = resolve other ts := resolve_ends duration _

/-- There are no windows only if there are no times. -/
theorem resolve_eq_nil_iff (ts : List Binary64) :
    resolve duration ts = [] ↔ ts = [] := by
  rcases ts with _ | ⟨start, _ | ⟨stop, rest⟩⟩
  · simp [resolve]
  · simp [resolve]
  · simp [resolve]

variable {duration}

/-- The ends of windows are times, or the duration for the last one. -/
theorem ends_of_mem_resolve {ts : List Binary64} {w : Window}
    (h : w ∈ resolve duration ts) :
    w.start ∈ ts ∧ (w.stop ∈ ts ∨ w.stop = duration) := by
  induction ts using resolve.induct with
  | case1 => cases h
  | case2 start =>
      obtain rfl := List.mem_singleton.1 h
      exact ⟨List.mem_singleton_self start, .inr rfl⟩
  | case3 start stop rest ih =>
      rcases List.mem_cons.1 h with rfl | h
      · exact ⟨by simp, .inl (by simp)⟩
      · obtain ⟨hstart, hstop⟩ := ih h
        refine ⟨by simp [hstart], hstop.imp_left fun hmem => by simp [hmem]⟩

end TimedOverlay.Window
