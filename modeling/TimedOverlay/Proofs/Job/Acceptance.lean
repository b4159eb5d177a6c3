/-
Which texts are job documents, and what they say.

The document of a text that is a JSON object is told by the members of
that object alone (`ofText_of_read`): a known name that is repeated makes
it unreadable, and of everything else only the last value of each known
name counts.
-/
import TimedOverlay.Job.Document
import TimedOverlay.Proofs.Json.Lookup
import TimedOverlay.Proofs.Json.Reading

namespace TimedOverlay.Document

open Json (Value Outline Spelling Mode)

variable {ms : List (String × Value)}

-- ========================================================== repetitions

/-- The names among members that a document knows, in order. -/
def knownNames (ms : List (String × Value)) : List String :=
  (ms.map (·.1)).filter (· ∈ names)

/-- No known name is repeated. -/
def Once (ms : List (String × Value)) : Prop := (knownNames ms).Nodup

/-- The first known name that comes again, given those that have come
before. -/
def repeated? (seen : List String) : List (String × Value) → Option String
  | [] => none
  | (name, _) :: rest =>
    if name ∈ names then
      if name ∈ seen then some name else repeated? (name :: seen) rest
    else repeated? seen rest

/-- Nothing comes again exactly if no known name is repeated and none has
come before. -/
theorem repeated?_eq_none_iff {seen : List String} :
    repeated? seen ms = none
      ↔ Once ms ∧ ∀ name ∈ knownNames ms, name ∉ seen := by
  induction ms generalizing seen with
  | nil => simp [repeated?, Once, knownNames]
  | cons p rest ih =>
      obtain ⟨name, v⟩ := p
      by_cases hknown : name ∈ names
      · have hnames : knownNames ((name, v) :: rest)
            = name :: knownNames rest := by
          simp [knownNames, hknown]
        rw [repeated?, if_pos hknown, Once, hnames, List.nodup_cons]
        by_cases hseen : name ∈ seen
        · simp [hseen]
        · rw [if_neg hseen, ih, Once]
          simp only [List.mem_cons, not_or, forall_eq_or_imp]
          constructor
          · rintro ⟨hnodup, hnew⟩
            exact ⟨⟨fun hmem => (hnew name hmem).1 rfl, hnodup⟩, hseen,
              fun n hn => (hnew n hn).2⟩
          · rintro ⟨⟨hfirst, hnodup⟩, _, hnew⟩
            refine ⟨hnodup, fun n hn => ⟨?_, hnew n hn⟩⟩
            rintro rfl
            exact hfirst hn
      · have hnames : knownNames ((name, v) :: rest) = knownNames rest := by
          simp [knownNames, hknown]
        rw [repeated?, if_neg hknown, ih, Once, Once, hnames]

theorem repeated?_nil_iff : repeated? [] ms = none ↔ Once ms := by
  rw [repeated?_eq_none_iff]
  exact ⟨fun h => h.1, fun h => ⟨h, fun _ _ => List.not_mem_nil⟩⟩

/-- What is repeated depends on the names alone. -/
theorem repeated?_congr {ms ns : List (String × Value)}
    (h : ms.map (·.1) = ns.map (·.1)) (seen : List String) :
    repeated? seen ms = repeated? seen ns := by
  induction ms generalizing ns seen with
  | nil =>
      obtain rfl := List.map_eq_nil_iff.1 h.symm
      rfl
  | cons p ms ih =>
      cases ns with
      | nil => cases h
      | cons q ns =>
          obtain ⟨hname, hrest⟩ := List.cons.inj h
          have hname : p.1 = q.1 := hname
          unfold repeated?
          simp only [hname, ih hrest]

-- ============================================================== reading

/-- The members that a document knows, in order. -/
def known (ms : List (String × Value)) : List (String × Value) :=
  ms.filter (·.1 ∈ names)

/-- Any field of a document, by its name: its value is kept. -/
def field (name : String) : Json.Field (List (String × Value)) :=
  .of name .defaulted (fun m o => o.value m.depth) fun vs v => (name, v) :: vs

/-- Whatever value a field has is read and kept. -/
theorem read_field {m : Mode} {o : Outline} {v : Value}
    (hv : o.value m.depth = .ok v) (name : String)
    (vs : List (String × Value)) :
    (field name).read m o vs = .ok ((name, v) :: vs) := by
  unfold field Json.Field.of
  dsimp only
  rw [hv]
  rfl

/-- A document finds a field for each name that it knows. -/
theorem find?_fields (name : String) :
    record.fields.find? (·.name = name)
      = if name ∈ names then some (field name) else none := by
  show (names.map field).find? (·.name = name) = _
  rw [List.find?_map]
  show (names.find? (· = name)).map field = _
  cases hfind : names.find? (· = name) with
  | none =>
      have hnone : name ∉ names := by
        intro hmem
        simpa using List.find?_eq_none.1 hfind name hmem
      rw [if_neg hnone]
      rfl
  | some n =>
      obtain rfl : n = name := by simpa using List.find?_some hfind
      rw [if_pos (List.mem_of_find?_eq_some hfind)]
      rfl

/-- The members of an object whose values can be read are read up to the
first known name that comes again. -/
theorem readMembers_eq {m : Mode} {os : List (Spelling × Outline)}
    (hms : Outline.memberValues m.depth os = .ok ms)
    (seen : List String) (vs : List (String × Value)) :
    record.readMembers m none seen vs os
      = match repeated? seen ms with
        | some name => .error (.duplicateField name)
        | none => .ok ((known ms).reverse ++ vs) := by
  -- The fields read so far are kept the last one first, so the look-up
  -- of a name will find its last member.
  induction os generalizing ms seen vs with
  | nil =>
      cases hms
      rfl
  | cons p rest ih =>
      obtain ⟨key, o⟩ := p
      obtain ⟨name, hname, h⟩ := Json.bind_eq_ok.1 hms
      obtain ⟨v, hv, h⟩ := Json.bind_eq_ok.1 h
      obtain ⟨ns, hns, h⟩ := Json.bind_eq_ok.1 h
      cases h
      rw [Json.Record.readMembers_cons _ _ _ _ _ hname, find?_fields]
      by_cases hknown : name ∈ names
      · rw [if_pos hknown, repeated?, if_pos hknown]
        dsimp only
        by_cases hseen : name ∈ seen
        · rw [if_pos hseen, if_pos hseen]
        · have hmore : known ((name, v) :: ns) = (name, v) :: known ns := by
            simp [known, hknown]
          rw [if_neg hseen, if_neg hseen, read_field hv, hmore]
          refine (ih hns _ _).trans ?_
          rw [List.reverse_cons, List.append_assoc]
          rfl
      · have hsame : known ((name, v) :: ns) = known ns := by
          simp [known, hknown]
        rw [if_neg hknown, repeated?, if_neg hknown, hsame]
        dsimp only
        rw [Outline.skim_of_value hv]
        exact ih hns _ _

/-- What a document looks up is the last member of a name that it
knows. -/
theorem lookup_known {name : String} (h : name ∈ names)
    (ms : List (String × Value)) :
    (known ms).reverse.lookup name = Value.last? name ms := by
  unfold known Value.last?
  rw [← List.filter_reverse]
  induction ms.reverse with
  | nil => rfl
  | cons p rest ih =>
      by_cases hp : p.1 = name
      · have hb : (name == p.1) = true := by simp [hp]
        rw [List.filter_cons_of_pos (by simp [hp, h]), List.lookup_cons, hb,
          List.find?_cons_of_pos (by simpa using hp)]
        rfl
      · rw [List.find?_cons_of_neg (by simpa using hp), ← ih]
        by_cases hknown : p.1 ∈ names
        · have hb : (name == p.1) = false := by simpa using Ne.symm hp
          rw [List.filter_cons_of_pos (by simpa using hknown),
            List.lookup_cons, hb]
        · rw [List.filter_cons_of_neg (by simpa using hknown)]

theorem ofFields_known (ms : List (String × Value)) :
    ofFields (fun name => (known ms).reverse.lookup name)
      = ofFields fun name => Value.last? name ms := by
  unfold ofFields
  congr 1
  all_goals exact congrArg _ (lookup_known (by decide) ms)

/-- A text that is an object is a job document exactly if no known name
is repeated; then the last member of each known name tells what it
says. -/
theorem ofText_of_read {s : String}
    (h : Json.read s = .ok (.object ms)) :
    ofText s
      = match repeated? [] ms with
        | some name => .error (.duplicateField name)
        | none => .ok (ofFields fun name => Value.last? name ms) := by
  obtain ⟨hmore, os, ho, hms⟩ := Json.object_of_read h
  have hread : record.ofText s
      = match repeated? [] ms with
        | some name => .error (.duplicateField name)
        | none => .ok (known ms).reverse := by
    unfold Json.Record.ofText Json.readText
    dsimp only
    rw [ho, hmore]
    show (record.readMembers ⟨Json.depthLimit - 1, false⟩ none [] [] os
      >>= fun a => pure a) = _
    rw [readMembers_eq hms]
    cases repeated? [] ms with
    | some name => rfl
    | none =>
        dsimp only
        rw [List.append_nil]
        rfl
  unfold ofText
  rw [hread]
  cases repeated? [] ms with
  | some name => rfl
  | none => exact congrArg Except.ok (ofFields_known ms)

end TimedOverlay.Document
