/-
Exactly which JSON texts are job documents.

What a text says as a job document depends on nothing but the value it
is as JSON (`ofText_eq_ofValue`): an object is told by the last member of
each name, an array by its items in the order of the names, and no other
value is a document. What the fields hold is no reason to refuse one, for
a field is kept as the value that it is. So a text that is JSON at all is
accepted for its outer form alone (`accepted_iff`), and a file with a
text that is not accepted is reported as malformed.
-/
import TimedOverlay.Job.File
import TimedOverlay.Proofs.Job.Acceptance
import Mathlib

namespace TimedOverlay

open Json (Value Outline Mode)

namespace Document

-- ============================================================ repetition

/-- No known name is repeated exactly if each occurs at most once. -/
theorem once_iff_count {ms : List (String × Value)} :
    Once ms ↔ ∀ name ∈ names, (ms.map (·.1)).count name ≤ 1 := by
  unfold Once knownNames
  rw [List.nodup_iff_count_le_one]
  constructor
  · intro hcount name hname
    rw [← List.count_filter (p := (· ∈ names)) (by simpa using hname)]
    exact hcount name
  · intro hcount name
    by_cases hname : name ∈ names
    · rw [List.count_filter (by simpa using hname)]
      exact hcount name hname
    · have hnone : name ∉ (ms.map (·.1)).filter (· ∈ names) := by
        intro hmem
        exact hname (by simpa using (List.mem_filter.1 hmem).2)
      rw [List.count_eq_zero.2 hnone]
      exact Nat.zero_le 1

-- ================================================================ arrays

/-- The items of an array are the fields in order, as long as there are
names for them. -/
theorem readItems_eq {m : Mode} (hmode : m.buffered = false) (count : Nat)
    {ns : List String} {os : List Outline} {vs : List Value}
    (hvs : Outline.values m.depth os = .ok vs) (index : Nat)
    (before : List (String × Value)) :
    record.readItems m none count index before (ns.map field) os
      = if vs.length ≤ ns.length then .ok ((ns.zip vs).reverse ++ before)
        else .error .trailingCharacters := by
  -- One name and one item at a time; what is left over of either decides.
  induction ns generalizing os vs index before with
  | nil =>
      cases os with
      | nil =>
          cases hvs
          rfl
      | cons o os =>
          obtain ⟨v, _, hvs⟩ := Json.bind_eq_ok.1 hvs
          obtain ⟨vs, _, hvs⟩ := Json.bind_eq_ok.1 hvs
          cases hvs
          rw [if_neg (by simp)]
          show (record.readEnd m none count (o :: os)
            >>= fun _ => pure before) = _
          rw [Json.Record.readEnd, hmode]
          rfl
  | cons n ns ih =>
      cases os with
      | nil =>
          cases hvs
          have hdefaulted : ((n :: ns).map field).findIdx?
              (·.presence ≠ .defaulted) = none := by
            rw [List.findIdx?_eq_none_iff]
            intro f hf
            obtain ⟨n', _, rfl⟩ := List.mem_map.1 hf
            rfl
          rw [List.map_cons] at hdefaulted ⊢
          rw [Json.Record.readItems, hdefaulted, if_pos (by simp)]
          · rfl
          · exact List.cons_ne_nil _ _
      | cons o os =>
          obtain ⟨v, hv, hvs⟩ := Json.bind_eq_ok.1 hvs
          obtain ⟨vs, hrest, hvs⟩ := Json.bind_eq_ok.1 hvs
          cases hvs
          show ((field n).read m o before >>= fun a =>
            record.readItems m none count (index + 1) a (ns.map field) os)
              = _
          rw [read_field hv]
          show record.readItems m none count (index + 1) ((n, v) :: before)
            (ns.map field) os = _
          rw [ih hrest, List.zip_cons_cons, List.reverse_cons,
            List.append_assoc, List.length_cons, List.length_cons]
          simp only [Nat.add_le_add_iff_right, List.singleton_append]

-- ================================================================ values

/-- The document of a value, or why it is none. -/
def ofValue : Value → Except Json.Error Document
  | .object ms => match repeated? [] ms with
    | some name => .error (.duplicateField name)
    | none => .ok (ofFields fun name => Value.last? name ms)
  | .array items =>
    if items.length ≤ names.length then
      .ok (ofFields fun name => (names.zip items).lookup name)
    else .error .trailingCharacters
  | v => .error (.wrongType v.seen record.expected)

theorem ofText_of_array {s : String} {items : List Value}
    (h : Json.read s = .ok (.array items)) :
    ofText s = ofValue (.array items) := by
  obtain ⟨hmore, os, ho, hvs⟩ := Json.array_of_read h
  have hread : record.ofText s
      = if items.length ≤ names.length then .ok (names.zip items).reverse
        else .error .trailingCharacters := by
    unfold Json.Record.ofText Json.readText
    dsimp only
    rw [ho, hmore]
    show (record.readItems ⟨Json.depthLimit - 1, false⟩ none os.length 0 []
      (names.map field) os >>= fun a => pure a) = _
    rw [readItems_eq rfl _ hvs, List.append_nil]
    split
    next => rfl
    next => rfl
  have hnames : names.Nodup := by decide
  unfold ofText
  rw [hread, ofValue]
  by_cases hlength : items.length ≤ names.length
  · rw [if_pos hlength, if_pos hlength]
    show Except.ok (ofFields fun name => (names.zip items).reverse.lookup
      name) = _
    simp only [Value.lookup_reverse_zip _ hnames]
  · rw [if_neg hlength, if_neg hlength]
    rfl

theorem ofText_of_scalar {s : String} {v : Value}
    (h : Json.read s = .ok v) (hscalar : v.IsScalar) :
    ofText s = .error (.wrongType v.seen record.expected) := by
  obtain ⟨hvalue, hmore⟩ := Json.readText_eq_ok.1 h
  unfold ofText Json.Record.ofText Json.readText
  dsimp only
  rw [Json.reader_of_scalar record hvalue hscalar]
  rfl

/-- A text that is JSON says as a job document what its value says. -/
theorem ofText_eq_ofValue {s : String} {v : Value}
    (h : Json.read s = .ok v) : ofText s = ofValue v := by
  cases v with
  | object ms => exact ofText_of_read h
  | array items => exact ofText_of_array h
  | null | bool _ | number _ | string _ => exact ofText_of_scalar h trivial

/-- The values that are documents. -/
theorem ofValue_ok_iff {v : Value} :
    (∃ d, ofValue v = .ok d)
      ↔ (∃ items, v = .array items ∧ items.length ≤ 6)
        ∨ ∃ ms, v = .object ms
          ∧ ∀ name ∈ names, (ms.map (·.1)).count name ≤ 1 := by
  cases v with
  | null | bool _ | number _ | string _ => simp [ofValue]
  | array items =>
      have hsix : names.length = 6 := rfl
      unfold ofValue
      rw [hsix]
      by_cases hlength : items.length ≤ 6
      · simp [hlength]
      · simp [hlength]
  | object ms =>
      unfold ofValue
      simp only [reduceCtorEq, false_and, exists_false, false_or,
        Value.object.injEq, exists_eq_left', ← once_iff_count]
      rw [← repeated?_nil_iff]
      cases repeated? [] ms with
      | none => simp
      | some name => simp

-- ================================================================= files

/-- A path that leads to a text leads to something. -/
theorem holds_of_text {fs : FileSystem} {path : SystemString} {s : String}
    (h : fs.text path = .ok s) : fs.holds path = true := by
  unfold FileSystem.holds FileSystem.at?
  unfold FileSystem.text FileSystem.contents at h
  cases hl : fs.locate path with
  | error fault =>
      rw [hl] at h
      cases h
  | ok l =>
      cases hget : fs.get? l with
      | none =>
          simp only [hl, hget, bind, Except.bind] at h
          cases h
      | some entry => simp [hget]

/-- A file whose text is no document is reported as malformed, with the
cause that its reader gave. -/
theorem load_of_error {fs : FileSystem} {path : SystemString} {s : String}
    {cause : Json.Error} (htext : fs.text path = .ok s)
    (hcause : ofText s = .error cause) :
    load fs path = .error (.malformed cause) := by
  unfold load
  rw [holds_of_text htext, htext]
  simp [hcause]

/-- Of the texts that are JSON, exactly those are job documents that are
an array of at most six items, or an object in which no known name occurs
twice, however it is spelled. Any other is a malformed job, wherever it is
read from. What stands in the fields never matters. -/
theorem accepted_iff {s : String} {v : Value} (h : Json.read s = .ok v) :
    ((∃ d, ofText s = .ok d)
        ↔ (∃ items, v = .array items ∧ items.length ≤ 6)
          ∨ ∃ ms, v = .object ms
            ∧ ∀ name ∈ names, (ms.map (·.1)).count name ≤ 1)
      ∧ ((¬ ∃ d, ofText s = .ok d) →
          ∃ cause, ofText s = .error cause
            ∧ ∀ (fs : FileSystem) (path : SystemString), fs.text path = .ok s →
              load fs path = .error (.malformed cause)) := by
  constructor
  · rw [ofText_eq_ofValue h]
    exact ofValue_ok_iff
  · intro hrefused
    cases hof : ofText s with
    | ok d => exact absurd ⟨d, hof⟩ hrefused
    | error cause =>
        exact ⟨cause, rfl, fun fs path htext => load_of_error htext hof⟩

/-- Names that a document does not know may come again; one that it knows
may not, also where an escape hides it, and nor may a seventh item. -/
theorem accepted_by_form :
    (∃ d, ofText "\x7b\"nodes\":7,\"note\":1,\"note\":[]\x7d" = .ok d)
      ∧ (¬ ∃ d, ofText "\x7b\"nodes\":[],\"\\u006eodes\":[]\x7d" = .ok d)
      ∧ (∃ d, ofText "[[],\"wide\",null]" = .ok d)
      ∧ ¬ ∃ d, ofText "[[],1,2,3,4,5,6]" = .ok d := by
  have hunknown : Json.read "\x7b\"nodes\":7,\"note\":1,\"note\":[]\x7d"
      = .ok (.object [("nodes", .ofNat 7), ("note", .ofNat 1),
        ("note", .array [])]) := by
    cbv
  have hknown : Json.read "\x7b\"nodes\":[],\"\\u006eodes\":[]\x7d"
      = .ok (.object [("nodes", .array []), ("nodes", .array [])]) := by
    cbv
  have hshort : Json.read "[[],\"wide\",null]"
      = .ok (.array [.array [], .string "wide", .null]) := by
    cbv
  have hlong : Json.read "[[],1,2,3,4,5,6]"
      = .ok (.array [.array [], .ofNat 1, .ofNat 2, .ofNat 3, .ofNat 4,
        .ofNat 5, .ofNat 6]) := by
    cbv
  refine ⟨(accepted_iff hunknown).1.2 (.inr ⟨_, rfl, by decide⟩), ?_,
    (accepted_iff hshort).1.2 (.inl ⟨_, rfl, by decide⟩), ?_⟩
  · intro hd
    rcases (accepted_iff hknown).1.1 hd with ⟨_, hv, _⟩ | ⟨ms, hv, hcount⟩
    · cases hv
    · cases hv
      exact absurd (hcount "nodes" (by decide)) (by decide)
  · intro hd
    rcases (accepted_iff hlong).1.1 hd with ⟨items, hv, hlength⟩ | ⟨_, hv, _⟩
    · cases hv
      exact absurd hlength (by decide)
    · cases hv

end Document

end TimedOverlay
