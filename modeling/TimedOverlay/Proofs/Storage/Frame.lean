/-
What a change of files leaves alone.

A walk asks of every place on its way only that it is a directory. So
two file systems that agree on directories are walked alike
(`walk_of_directories`), and making directories, which fills places
where nothing was, or removing what is no directory, moves no other
path. The main statements are `at?_makeParent`, that making room for an
output hides nothing that is there, and `at?_remove_same` and
`at?_remove_other`, that removing one path takes another with it exactly
if both lead to one place.
-/
import TimedOverlay.Storage.FileSystem

namespace TimedOverlay.FileSystem

-- =============================================================== walking

/-- A walk goes the same way where every directory is still one. -/
theorem walk_of_directories {fs fs' : FileSystem}
    (h : ∀ l, fs.get? l = some .directory → fs'.get? l = some .directory)
    {l k : Location} {way : List SystemString} (hwalk : fs.walk l way = .ok k) :
    fs'.walk l way = .ok k := by
  induction way generalizing l with
  | nil => exact hwalk
  | cons name rest ih =>
      simp only [walk] at hwalk ⊢
      cases hl : fs.get? l with
      | none =>
          rw [hl] at hwalk
          cases hwalk
      | some e =>
          rw [hl] at hwalk
          cases e with
          | file content executable => cases hwalk
          | device => cases hwalk
          -- Only here does a walk go on, and here `fs'` looks the same.
          | directory =>
              rw [h l hl]
              dsimp only at hwalk ⊢
              split at hwalk
              next hn => rw [if_pos hn]; exact ih hwalk
              next hn =>
                rw [if_neg hn]
                split at hwalk
                next hup => rw [if_pos hup]; exact ih hwalk
                next hup =>
                  rw [if_neg hup]
                  split at hwalk
                  next => cases hwalk
                  next hlong => rw [if_neg hlong]; exact ih hwalk

/-- A path leads to the same place where every directory is still one
and paths start where they did. -/
theorem locate_of_directories {fs fs' : FileSystem}
    (h : ∀ l, fs.get? l = some .directory → fs'.get? l = some .directory)
    (hworking : fs'.working = fs.working) {path : SystemString} {k : Location}
    (hlocate : fs.locate path = .ok k) : fs'.locate path = .ok k := by
  unfold locate follow at hlocate ⊢
  split at hlocate
  next => cases hlocate
  next =>
    have horigin : fs'.origin path = fs.origin path := by
      unfold origin
      rw [hworking]
    rw [horigin]
    exact walk_of_directories h hlocate

theorem at?_eq_some {fs : FileSystem} {path : SystemString} {e : Entry} :
    fs.at? path = some e
      ↔ ∃ l, fs.locate path = .ok l ∧ fs.get? l = some e := by
  unfold at?
  cases fs.locate path with
  | error fault => simp
  | ok l => simp

/-- What can only be added to hides nothing. -/
theorem at?_of_extends {fs fs' : FileSystem}
    (h : ∀ l e, fs.get? l = some e → fs'.get? l = some e)
    (hworking : fs'.working = fs.working) {path : SystemString} {e : Entry}
    (hat : fs.at? path = some e) : fs'.at? path = some e := by
  obtain ⟨l, hl, he⟩ := at?_eq_some.1 hat
  exact at?_eq_some.2
    ⟨l, locate_of_directories (fun k => h k _) hworking hl, h l e he⟩

-- ==================================================== making directories

/-- Making a way fills only places where nothing was. -/
theorem get?_makeWay {fs : FileSystem} {created : Bool} {l : Location}
    {way : List SystemString} {k : Location} {e : Entry}
    (h : fs.get? k = some e) :
    (fs.makeWay created l way).1.get? k = some e := by
  induction way generalizing fs created l with
  | nil => exact h
  | cons name rest ih =>
      simp only [makeWay]
      split
      next => exact ih h
      next =>
        split
        next => exact ih h
        next =>
          split
          next => exact h
          next =>
            split
            next => exact ih h
            -- A directory is put only where nothing was, and `k` is taken.
            next hnone =>
              refine ih ?_
              have hne : k ≠ l ++ [name] := by
                rintro rfl
                rw [hnone] at h
                cases h
              rw [get?_put_of_ne fs hne]
              exact h
            next => exact h

theorem working_makeWay (fs : FileSystem) (created : Bool) (l : Location)
    (way : List SystemString) :
    (fs.makeWay created l way).1.working = fs.working := by
  induction way generalizing fs created l with
  | nil => rfl
  | cons name rest ih =>
      simp only [makeWay]
      split
      next => exact ih ..
      next =>
        split
        next => exact ih ..
        next =>
          split
          next => rfl
          next =>
            split
            next => exact ih ..
            next => exact ih ..
            next => rfl

/-- The parent of a path is made by making a way, if at all. -/
theorem makeParent_cases (fs : FileSystem) (path : SystemString) :
    (fs.makeParent path).1 = fs
      ∨ ∃ l way, (fs.makeParent path).1 = (fs.makeWay false l way).1 := by
  unfold makeParent
  cases Path.parent? path with
  | none => exact .inl rfl
  | some dir =>
      show (fs.makeDirectories dir).1 = fs
        ∨ ∃ l way, (fs.makeDirectories dir).1 = (fs.makeWay false l way).1
      unfold makeDirectories
      cases dir.isEmpty with
      | true => exact .inl rfl
      | false =>
          cases refusal? dir with
          | some fault => exact .inl rfl
          | none => exact .inr ⟨_, _, rfl⟩

/-- Making the parent of a path hides nothing that is there. -/
theorem at?_makeParent {fs : FileSystem} (output : SystemString) {path : SystemString}
    {e : Entry} (h : fs.at? path = some e) :
    (fs.makeParent output).1.at? path = some e := by
  rcases fs.makeParent_cases output with hsame | ⟨l, way, hway⟩
  · rw [hsame]
    exact h
  · rw [hway]
    exact at?_of_extends (fun k e hk => get?_makeWay hk)
      (working_makeWay ..) h

-- ============================================================== removing

/-- What is removed is no longer there. -/
theorem get?_erase_self (fs : FileSystem) {l : Location} (h : l ≠ []) :
    (fs.erase l).get? l = none := by
  unfold get? erase
  rw [if_neg h, List.lookup_eq_none_iff]
  intro p hp
  have hne : p.1 ≠ l := by simpa using (List.mem_filter.1 hp).2
  simpa using Ne.symm hne

/-- Removing a path removes what it leads to, if that is no directory. -/
theorem remove_of_locate {fs : FileSystem} {path : SystemString} {l : Location}
    (hl : fs.locate path = .ok l) (hne : fs.get? l ≠ some .directory) :
    fs.remove path = fs.erase l := by
  unfold remove
  rw [hl]
  exact if_neg hne

/-- A directory is not removed. -/
theorem get?_remove_directory {fs : FileSystem} (path : SystemString)
    {l : Location} (h : fs.get? l = some .directory) :
    (fs.remove path).get? l = some .directory := by
  unfold remove
  split
  next k _ =>
    split
    next => exact h
    next hne =>
      have hlk : l ≠ k := by
        rintro rfl
        exact hne h
      rw [get?_erase_of_ne fs hlk]
      exact h
  next => exact h

theorem working_remove (fs : FileSystem) (path : SystemString) :
    (fs.remove path).working = fs.working := by
  unfold remove
  split
  next =>
    split
    next => rfl
    next => rfl
  next => rfl

/-- A path leads to the same place after another has been removed. -/
theorem locate_remove {fs : FileSystem} {path : SystemString} {l : Location}
    (output : SystemString) (h : fs.locate path = .ok l) :
    (fs.remove output).locate path = .ok l :=
  locate_of_directories (fun _ => get?_remove_directory output)
    (fs.working_remove output) h

/-- Removing one path takes a file at another with it if both lead to the
same place. -/
theorem at?_remove_same {fs : FileSystem} {path output : SystemString} {e : Entry}
    (h : fs.at? path = some e) (hfile : e ≠ .directory)
    (hsame : fs.locate output = fs.locate path) :
    (fs.remove output).at? path = none := by
  obtain ⟨l, hl, he⟩ := at?_eq_some.1 h
  have hne : fs.get? l ≠ some .directory := by
    rw [he]
    simpa using hfile
  have hroot : l ≠ [] := by
    rintro rfl
    exact hne rfl
  unfold at?
  rw [locate_remove output hl]
  dsimp only
  rw [remove_of_locate (hsame.trans hl) hne]
  exact fs.get?_erase_self hroot

/-- After a path has been removed it leads to no file. -/
theorem isFile_remove (fs : FileSystem) (path : SystemString) :
    (fs.remove path).isFile path = false := by
  cases hl : fs.locate path with
  | error fault =>
      have hsame : fs.remove path = fs := by
        unfold remove
        rw [hl]
      rw [hsame]
      unfold isFile at?
      rw [hl]
  | ok l =>
      unfold isFile at?
      rw [locate_remove path hl]
      dsimp only
      by_cases hdir : fs.get? l = some .directory
      · rw [get?_remove_directory path hdir]
      · have hroot : l ≠ [] := by
          rintro rfl
          exact hdir rfl
        rw [remove_of_locate hl hdir, fs.get?_erase_self hroot]

/-- Removing one path leaves what is at another if they lead to different
places. -/
theorem at?_remove_other {fs : FileSystem} {path output : SystemString}
    {e : Entry} (h : fs.at? path = some e)
    (hother : fs.locate output ≠ fs.locate path) :
    (fs.remove output).at? path = some e := by
  obtain ⟨l, hl, he⟩ := at?_eq_some.1 h
  refine at?_eq_some.2 ⟨l, locate_remove output hl, ?_⟩
  unfold remove
  split
  next k hk =>
    split
    next => exact he
    next =>
      have hlk : l ≠ k := by
        rintro rfl
        exact hother (hk.trans hl.symm)
      rw [get?_erase_of_ne fs hlk]
      exact he
  next => exact he

end TimedOverlay.FileSystem
