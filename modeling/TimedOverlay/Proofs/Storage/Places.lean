/-
Which places a change of files reaches.

Making a way fills none but the places that its names lead through, and
writing a file changes the one place that its path leads to, which it
does exactly if no directory is there (`write_of_writable`,
`write_of_not_writable`). So of all that there is, opening a log changes
nothing; it only fills places on the way to the log and that of the log
itself (`LogSettings.filled_of_openFile`).
-/
import TimedOverlay.Proofs.Storage.Frame
import TimedOverlay.Settings.Record

namespace TimedOverlay

namespace FileSystem

-- ================================================================== ways

/-- The places that names lead through from a place. -/
def waypoints (l : Location) : List SystemString → List Location
  | [] => []
  | name :: rest =>
    if name = "" ∨ name = "." then waypoints l rest
    else if name = ".." then waypoints l.dropLast rest
    else (l ++ [name]) :: waypoints (l ++ [name]) rest

/-- The places that a path leads through, its own the last. -/
def way (fs : FileSystem) (path : SystemString) : List Location :=
  waypoints (fs.origin path) (namesProper path)

/-- Making a way changes nothing off the way. -/
theorem get?_makeWay_of_not_mem {fs : FileSystem} {created : Bool}
    {l k : Location} {way : List SystemString} (h : k ∉ waypoints l way) :
    (fs.makeWay created l way).1.get? k = fs.get? k := by
  induction way generalizing fs created l with
  | nil => rfl
  | cons name rest ih =>
      simp only [makeWay, waypoints] at h ⊢
      split
      next hsame =>
        rw [if_pos hsame] at h
        exact ih h
      next hsame =>
        rw [if_neg hsame] at h
        split
        next hup =>
          rw [if_pos hup] at h
          exact ih h
        next hup =>
          rw [if_neg hup] at h
          rw [List.mem_cons, not_or] at h
          obtain ⟨hne, hrest⟩ := h
          split
          next => rfl
          next =>
            split
            next => exact ih hrest
            next => exact (ih hrest).trans (get?_put_of_ne fs hne _)
            next => rfl

/-- The parent of a path is made by making the way to it, if at all. -/
theorem get?_makeParent_of_not_mem {fs : FileSystem} {path : SystemString}
    {k : Location}
    (h : ∀ dir, Path.parent? path = some dir → k ∉ fs.way dir) :
    (fs.makeParent path).1.get? k = fs.get? k := by
  unfold makeParent
  cases hparent : Path.parent? path with
  | none => rfl
  | some dir =>
      show (fs.makeDirectories dir).1.get? k = fs.get? k
      unfold makeDirectories
      cases dir.isEmpty with
      | true => rfl
      | false =>
          cases refusal? dir with
          | some fault => rfl
          | none => exact get?_makeWay_of_not_mem (h dir hparent)

theorem get?_makeParent {fs : FileSystem} (path : SystemString) {k : Location}
    {e : Entry} (h : fs.get? k = some e) :
    (fs.makeParent path).1.get? k = some e := by
  rcases fs.makeParent_cases path with hsame | ⟨l, way, hway⟩
  · rw [hsame]
    exact h
  · rw [hway]
    exact get?_makeWay h

theorem working_makeParent (fs : FileSystem) (path : SystemString) :
    (fs.makeParent path).1.working = fs.working := by
  rcases fs.makeParent_cases path with hsame | ⟨l, way, hway⟩
  · rw [hsame]
  · rw [hway]
    exact working_makeWay ..

-- =============================================================== writing

/-- The place of a file is where its path leads. -/
theorem locate_of_locateFile {fs : FileSystem} {path : SystemString}
    {l : Location} (h : fs.locateFile path = .ok l) :
    fs.locate path = .ok l := by
  unfold locateFile at h
  split at h
  next =>
    cases hway : fs.follow path ((namesProper path).dropLast ++ [.text "."]) with
    | error fault =>
        rw [hway] at h
        cases h
    | ok k =>
        rw [hway] at h
        cases h
  next => exact h

/-- A file can be written at a path: it leads to a place where no
directory is. -/
def Writable (fs : FileSystem) (path : SystemString) : Prop :=
  ∃ l, fs.locateFile path = .ok l ∧ fs.get? l ≠ some .directory

/-- What is put in a place that is no directory can be found by the path
that led there. -/
theorem at?_put {fs : FileSystem} {path : SystemString} {l : Location}
    (hl : fs.locate path = .ok l) (hne : fs.get? l ≠ some .directory)
    (e : Entry) : (fs.put l e).at? path = some e := by
  have hroot : l ≠ [] := by
    intro hnil
    apply hne
    rw [hnil]
    rfl
  have hdirectories (k : Location) (hk : fs.get? k = some .directory) :
      (fs.put l e).get? k = some .directory := by
    have hkl : k ≠ l := by
      intro hsame
      apply hne
      rw [← hsame]
      exact hk
    rw [get?_put_of_ne fs hkl]
    exact hk
  apply at?_eq_some.2
  exact ⟨l, locate_of_directories hdirectories rfl hl,
    get?_put_self fs hroot e⟩

/-- What is written depends on what is at the place of the file. -/
theorem write_of_locateFile {fs : FileSystem} {path : SystemString}
    {l : Location} (h : fs.locateFile path = .ok l)
    (content : List UInt8) :
    fs.write path content
      = match fs.get? l with
        | some .directory => .error .isDirectory
        | some .device => .ok fs
        | some (.file _ executable) =>
          .ok (fs.put l (.file content executable))
        | none => .ok (fs.put l (.file content false)) := by
  unfold write
  rw [h]
  rfl

/-- Writing changes the place that a path leads to and no other. Then the
content is found there, unless a device has taken it. -/
theorem write_of_writable {fs : FileSystem} {path : SystemString}
    (h : fs.Writable path) (content : List UInt8) :
    ∃ left, fs.write path content = .ok left
      ∧ left.working = fs.working
      ∧ (∀ k, fs.locateFile path ≠ .ok k → left.get? k = fs.get? k)
      ∧ (left.at? path = some .device
        ∨ ∃ executable, left.at? path = some (.file content executable)) := by
  obtain ⟨l, hl, hne⟩ := h
  have hlocate := locate_of_locateFile hl
  have hother (e : Entry) (k : Location) (hk : fs.locateFile path ≠ .ok k) :
      (fs.put l e).get? k = fs.get? k := by
    apply get?_put_of_ne
    intro hsame
    apply hk
    rw [hsame]
    exact hl
  rw [write_of_locateFile hl]
  cases he : fs.get? l with
  | none =>
      exact ⟨_, rfl, rfl, hother _, .inr ⟨false, at?_put hlocate hne _⟩⟩
  | some e =>
      cases e with
      | directory => exact absurd he hne
      | device =>
          exact ⟨_, rfl, rfl, fun _ _ => rfl,
            .inl (at?_eq_some.2 ⟨l, hlocate, he⟩)⟩
      | file old executable =>
          exact ⟨_, rfl, rfl, hother _,
            .inr ⟨executable, at?_put hlocate hne _⟩⟩

theorem write_of_not_writable {fs : FileSystem} {path : SystemString}
    (h : ¬ fs.Writable path) (content : List UInt8) :
    ∃ fault, fs.write path content = .error fault := by
  cases hl : fs.locateFile path with
  | error fault =>
      refine ⟨fault, ?_⟩
      unfold write
      rw [hl]
      rfl
  | ok l =>
      have hdirectory : fs.get? l = some .directory := by
        by_cases hne : fs.get? l = some .directory
        · exact hne
        · exact absurd ⟨l, hl, hne⟩ h
      refine ⟨.isDirectory, ?_⟩
      rw [write_of_locateFile hl, hdirectory]

theorem working_write {fs left : FileSystem} {path : SystemString}
    {content : List UInt8} (h : fs.write path content = .ok left) :
    left.working = fs.working := by
  by_cases hwritable : fs.Writable path
  · obtain ⟨left', hwrite, hworking, -⟩ := write_of_writable hwritable content
    rw [hwrite] at h
    cases h
    exact hworking
  · obtain ⟨fault, hwrite⟩ := write_of_not_writable hwritable content
    rw [hwrite] at h
    cases h

end FileSystem

-- ================================================================== logs

namespace LogSettings

open FileSystem

variable {s : LogSettings} {fs : FileSystem} {l : Location}

/-- The places on the way to the directory of a log. -/
def OnWay (s : LogSettings) (fs : FileSystem) (l : Location) : Prop :=
  ∃ path dir, s.file = some path ∧ Path.parent? path = some dir
    ∧ l ∈ fs.way dir

/-- The place of the file of a log. -/
def IsPlace (s : LogSettings) (fs : FileSystem) (l : Location) : Prop :=
  ∃ path, s.file = some path
    ∧ (fs.makeParent path).1.locateFile path = .ok l

/-- Adding nothing to a file changes nothing that is there; it puts a file
in its place if nothing is. -/
theorem get?_append_nil {path : SystemString} {left : FileSystem}
    (h : fs.append path [] = .ok left) :
    left.get? l = fs.get? l
      ∨ (fs.get? l = none ∧ fs.locateFile path = .ok l) := by
  unfold append at h
  cases hplace : fs.locateFile path with
  | error fault =>
      unfold write at h
      rw [hplace] at h
      cases h
  | ok k =>
      unfold contents at h
      rw [write_of_locateFile hplace, locate_of_locateFile hplace] at h
      dsimp only [bind, Except.bind] at h
      cases hk : fs.get? k with
      | none =>
          rw [hk] at h
          cases h
          by_cases hl : l = k
          · rw [hl]
            exact .inr ⟨hk, rfl⟩
          · exact .inl (get?_put_of_ne fs hl _)
      | some e =>
          rw [hk] at h
          cases e with
          | directory => cases h
          | device =>
              cases h
              exact .inl rfl
          -- The file is put back as it was.
          | file content executable =>
              cases h
              left
              rw [List.append_nil]
              by_cases hl : l = k
              · have hroot : k ≠ [] := by
                  intro hnil
                  rw [hnil] at hk
                  cases hk
                rw [hl, get?_put_self fs hroot, hk]
                rfl
              · exact get?_put_of_ne fs hl _

/-- Opening a log changes nothing that is there; it only fills places on
the way to the log, and that of the log itself. -/
theorem filled_of_openFile (s : LogSettings) (fs : FileSystem)
    (l : Location) :
    (s.openFile fs).get? l = fs.get? l
      ∨ (fs.get? l = none ∧ (s.OnWay fs l ∨ s.IsPlace fs l)) := by
  unfold openFile
  cases hfile : s.file with
  | none => exact .inl rfl
  | some path =>
      have hway : (fs.makeParent path).1.get? l = fs.get? l
          ∨ (fs.get? l = none ∧ (s.OnWay fs l ∨ s.IsPlace fs l)) := by
        by_cases hway : s.OnWay fs l
        · cases hl : fs.get? l with
          | none => exact .inr ⟨rfl, .inl hway⟩
          | some e => exact .inl (get?_makeParent path hl)
        · left
          apply get?_makeParent_of_not_mem
          intro dir hdir hmem
          exact hway ⟨path, dir, hfile, hdir, hmem⟩
      dsimp only
      cases happend : (fs.makeParent path).1.append path [] with
      | error fault => exact hway
      | ok left =>
          rcases get?_append_nil (l := l) happend with hsame | ⟨hnone, hplace⟩
          · dsimp only
            rw [hsame]
            exact hway
          · right
            refine ⟨?_, .inr ⟨path, hfile, hplace⟩⟩
            cases hl : fs.get? l with
            | none => rfl
            | some e =>
                rw [get?_makeParent path hl] at hnone
                cases hnone

theorem working_openFile (s : LogSettings) (fs : FileSystem) :
    (s.openFile fs).working = fs.working := by
  unfold openFile
  cases s.file with
  | none => rfl
  | some path =>
      dsimp only
      cases happend : (fs.makeParent path).1.append path [] with
      | error fault => exact fs.working_makeParent path
      | ok left =>
          exact (working_write happend).trans (fs.working_makeParent path)

end LogSettings

end TimedOverlay
