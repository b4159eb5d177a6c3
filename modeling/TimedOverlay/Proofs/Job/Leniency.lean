/-
A bad field degrades alone.

`Spoilt` relates a value that has an unreadable field somewhere, at any
level, to the same value without that field. Reading makes no difference
between the two (`read_of_spoilt`), by induction on the way down to the
field. So a job document with a bad field says exactly what it says
without that field (`Document.bad_field_degrades_alone`).
-/
import Mathlib
import TimedOverlay.Proofs.Job.Form

namespace TimedOverlay

open Json (Value)

namespace Form

-- ============================================================== spoiling

/-- The second value is the first without a field, at any level, that
could not be read: the field of an object, of a member or item of a
record, or of a node. -/
inductive Spoilt : Form → Value → Value → Prop where
  | gone {f g : Form} {name : String} {bad : Value}
      {ms : List (String × Value)} (hfield : (name, g) ∈ f.fields)
      (hlast : Value.last? name ms = some bad) (hbad : g.reads bad = false) :
      Spoilt f (.object ms) (.object (Value.without name ms))
  | member {f g : Form} {name : String} {v w : Value}
      (pre post : List (String × Value)) (hfield : (name, g) ∈ f.fields)
      (hinner : Spoilt g v w) :
      Spoilt f (.object (pre ++ (name, v) :: post))
        (.object (pre ++ (name, w) :: post))
  | item {f g : Form} {name : String} {v w : Value} (pre post : List Value)
      (hfield : f.fields[pre.length]? = some (name, g))
      (hinner : Spoilt g v w) :
      Spoilt f (.array (pre ++ v :: post)) (.array (pre ++ w :: post))
  | node {v w : Value} (pre post : List Value) (hinner : Spoilt .node v w) :
      Spoilt .nodes (.array (pre ++ v :: post)) (.array (pre ++ w :: post))

/-- A value with an unreadable field is read like the value without that
field. -/
theorem read_of_spoilt {f : Form} {v w : Value} (h : Spoilt f v w) :
    f.read (some v) = f.read (some w) := by
  -- Down the way to the field; every record on it is told by the readings
  -- of its fields, of which only the one on the way may have changed.
  induction h with
  | @gone f g name bad ms hfield hlast hbad =>
      refine read_congr (List.ne_nil_of_mem hfield) rfl ?_
      rintro ⟨n, g'⟩ hp
      show g'.read (Value.last? n ms)
        = g'.read (Value.last? n (Value.without name ms))
      by_cases hn : n = name
      · subst hn
        obtain rfl := f.fields_unique hfield hp
        rw [hlast, Value.last?_without_self]
        exact read_of_not_reads hbad
      · rw [Value.last?_without_of_ne hn]
  | @member f g name v w pre post hfield _ ih =>
      refine read_congr (List.ne_nil_of_mem hfield) rfl ?_
      rintro ⟨n, g'⟩ hp
      show g'.read (Value.last? n (pre ++ (name, v) :: post))
        = g'.read (Value.last? n (pre ++ (name, w) :: post))
      -- A later member of the same name hides the exchanged one.
      rcases Value.last?_exchange n name v w pre post with
        hsame | ⟨rfl, hv, hw⟩
      · rw [hsame]
      · obtain rfl := f.fields_unique hfield hp
        rw [hv, hw]
        exact ih
  | @item f g name v w pre post hfield _ ih =>
      have hmem := List.mem_of_getElem? hfield
      obtain ⟨hhas, hinner⟩ := f.inner_exchange v w pre post
      refine read_congr (List.ne_nil_of_mem hmem) hhas ?_
      rintro ⟨n, g'⟩ hp
      rcases hinner n with hsame | ⟨hname, hv, hw⟩
      · rw [hsame]
      · have hn : name = n := by
          rw [names, List.getElem?_map, hfield] at hname
          exact Option.some.inj hname
        subst hn
        obtain rfl := f.fields_unique hmem hp
        rw [hv, hw]
        exact ih
  | @node v w pre post _ ih =>
      have hnode : Node.ofValue? v = Node.ofValue? w := ih
      show (pre ++ v :: post).filterMap Node.ofValue?
        = (pre ++ w :: post).filterMap Node.ofValue?
      simp only [List.filterMap_append, List.filterMap_cons, hnode]

/-- An object without a field is still an object, and has at most the
names that it had. -/
theorem object_of_spoilt {f : Form} {ms : List (String × Value)} {w : Value}
    (h : Spoilt f (.object ms) w) :
    ∃ ns, w = .object ns
      ∧ (Document.knownNames ns).Sublist (Document.knownNames ms) := by
  cases h with
  | gone hfield hlast hbad =>
      refine ⟨_, rfl, ?_⟩
      exact ((List.filter_sublist).map _).filter _
  | member pre post hfield hinner =>
      refine ⟨_, rfl, ?_⟩
      simp [Document.knownNames]

end Form

-- =========================================================== documents

/-- A job document with an unreadable field, at whatever level, says
exactly what the document without this field says: same frame, same
duration, same canvas, same components. It is accepted like every
document in which no known name is repeated, and for nothing else is a
document refused. -/
theorem Document.bad_field_degrades_alone {s t : String}
    {ms : List (String × Value)} {w : Value}
    (hs : Json.read s = .ok (.object ms)) (ht : Json.read t = .ok w)
    (hspoilt : Form.Spoilt .document (.object ms) w) :
    (Once ms → ∃ d, ofText s = .ok d ∧ ofText t = .ok d)
      ∧ (¬ Once ms → ∃ name, ofText s = .error (.duplicateField name)) := by
  constructor
  · intro honce
    obtain ⟨ns, rfl, hsub⟩ := Form.object_of_spoilt hspoilt
    have hsame := Form.read_of_spoilt hspoilt
    rw [ofText_of_read hs, ofText_of_read ht, repeated?_nil_iff.2 honce,
      repeated?_nil_iff.2 (honce.sublist hsub)]
    exact ⟨_, rfl, congrArg Except.ok (Option.some.inj hsame).symm⟩
  · intro hmore
    rw [ofText_of_read hs]
    cases hrepeated : repeated? [] ms with
    | none => exact absurd (repeated?_nil_iff.1 hrepeated) hmore
    | some name => exact ⟨name, rfl⟩

/-- A style inside data that is written as an array loses a color that
cannot be read, and nothing else. -/
theorem Document.bad_color_degrades_alone :
    ∃ d,
      ofText
          ("\x7b\"nodes\":[\x7b\"type\":\"circle\",\"data\":[[0,5],"
            ++ "\x7b\"fillColor\":\"reddish\",\"opacity\":\"0.5\"\x7d]\x7d]\x7d")
        = .ok d
      ∧ ofText
          ("\x7b\"nodes\":[\x7b\"type\":\"circle\",\"data\":[[0,5],"
            ++ "\x7b\"opacity\":\"0.5\"\x7d]\x7d]\x7d")
        = .ok d := by
  have hs : Json.read
      ("\x7b\"nodes\":[\x7b\"type\":\"circle\",\"data\":[[0,5],"
        ++ "\x7b\"fillColor\":\"reddish\",\"opacity\":\"0.5\"\x7d]\x7d]\x7d")
      = .ok (.object [("nodes", .array [.object [("type", .string "circle"),
          ("data", .array [.array [.ofNat 0, .ofNat 5],
            .object [("fillColor", .string "reddish"),
              ("opacity", .string "0.5")]])]])]) := by
    cbv
  have ht : Json.read
      ("\x7b\"nodes\":[\x7b\"type\":\"circle\",\"data\":[[0,5],"
        ++ "\x7b\"opacity\":\"0.5\"\x7d]\x7d]\x7d")
      = .ok (.object [("nodes", .array [.object [("type", .string "circle"),
          ("data", .array [.array [.ofNat 0, .ofNat 5],
            .object [("opacity", .string "0.5")]])]])]) := by
    cbv
  have hcolor : ("fillColor", Form.paint) ∈ Form.styles.fields := by decide
  have hdata : ("data", Form.data) ∈ Form.node.fields := by decide
  have hnodes : ("nodes", Form.nodes) ∈ Form.document.fields := by decide
  have hbad : Form.paint.reads (.string "reddish") = false := by
    decide +kernel
  refine (bad_field_degrades_alone hs ht ?_).1 (by unfold Once; decide)
  exact .member [] [] hnodes (.node [] []
    (.member [_] [] hdata (.item [_] [] rfl (.gone hcolor rfl hbad))))

end TimedOverlay
