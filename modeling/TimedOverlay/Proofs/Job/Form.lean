/-
The fields of a job document.

Every field has a form (`Form`), which says of a value whether the field
can be read from it (`Form.reads`) and, where it is a record, what fields
are inside. The two laws are that a record depends on nothing but the
readings of its fields (`read_congr`), and that a value from which a
field cannot be read is read as if it were missing
(`read_of_not_reads`).
-/
import Mathlib.Data.List.Nodup
import TimedOverlay.Proofs.Job.Acceptance

namespace TimedOverlay

open Json (Value)

/-- The forms that a field can have. -/
inductive Form where
  | number
  | label
  | kind
  | word
  | color
  | paint
  | boolean
  | numbers
  | point
  | styles
  | data
  | node
  | nodes
  | document
deriving DecidableEq

namespace Form

-- ================================================================ forms

/-- The fields of a form that is a record, in the order of an array. -/
def fields : Form → List (String × Form)
  | .point => [("x", .number), ("y", .number)]
  | .styles =>
    [("fillColor", .paint), ("fillType", .word), ("borderColor", .color),
      ("borderWidth", .number), ("opacity", .number), ("fontSize", .number),
      ("fontColor", .color), ("textAlign", .word), ("hasShadow", .boolean),
      ("shadowColor", .color), ("shadowOffsetX", .number),
      ("shadowOffsetY", .number), ("shadowBlur", .number),
      ("shadowOpacity", .number)]
  | .data =>
    [("timestamps", .numbers), ("styles", .styles), ("text", .label),
      ("startPoint", .point), ("endPoint", .point), ("image", .word),
      ("visible", .boolean)]
  | .node =>
    [("id", .label), ("type", .kind), ("position", .point),
      ("width", .number), ("height", .number), ("data", .data)]
  | .document =>
    [("nodes", .nodes), ("video_width", .number), ("video_height", .number),
      ("video_duration", .number), ("canvas_width", .number),
      ("canvas_height", .number)]
  | _ => []

/-- Whether a finite number is meant by a text, with or without its
unit. -/
def isNumeral (s : String) : Bool :=
  (Binary64.numeral? (LooseNumber.withoutUnit s.toList)).any
    Binary64.isFinite

/-- Whether a field of a form can be read from a value. A record is an
object, or an array with no more items than it has fields. -/
def reads : Form → Value → Bool
  | .number, .number n => n.toBinary64.isFinite
  | .number, .string s => isNumeral s
  | .label, .string _ => true
  | .label, .number _ => true
  | .label, .bool _ => true
  | .kind, .string s => (Kind.ofName? (Text.keyword s)).isSome
  | .kind, .number n => (Kind.ofName? (Text.keyword n.text)).isSome
  | .word, .string _ => true
  | .color, .string s => (Color.parse? s).isSome
  | .paint, .string s => (Paint.parse? s).isSome
  | .boolean, .bool _ => true
  | .boolean, .string s => Text.keyword s = "true" || Text.keyword s = "false"
  | .boolean, .number n => n.toBinary64.same 0 || n.toBinary64.same 1
  | .numbers, .array _ => true
  | .nodes, .array _ => true
  | f, .object _ => !f.fields.isEmpty
  | f, .array items => !f.fields.isEmpty && items.length ≤ f.fields.length
  | _, _ => false

/-- What a field of a form is read as. -/
abbrev Reading : Form → Type
  | .number => Option Binary64
  | .label => Option String
  | .kind => Option Kind
  | .word => Option String
  | .color => Option Color
  | .paint => Option Paint
  | .boolean => Option Bool
  | .numbers => List Binary64
  | .point => LoosePoint
  | .styles => StyleSheet
  | .data => NodeData
  | .node => Option Node
  | .nodes => List Node
  | .document => Option Document

/-- The reading of a field of a form. -/
def read : (f : Form) → Option Value → f.Reading
  | .number => Loose.number?
  | .label => Loose.text?
  | .kind => fun field =>
    (Loose.text? field).bind fun s => Kind.ofName? (Text.keyword s)
  | .word => Loose.string?
  | .color => StyleSheet.color?
  | .paint => fun field => (Loose.string? field).bind Paint.parse?
  | .boolean => Loose.boolean?
  | .numbers => Loose.numbers
  | .point => LoosePoint.ofField
  | .styles => StyleSheet.ofField
  | .data => NodeData.ofField
  | .node => fun field => field.bind Node.ofValue?
  | .nodes => Document.nodesOf
  | .document => fun field =>
    (field.bind (Value.fields? Document.names)).map Document.ofFields

/-- The names of the fields of a form. -/
def names (f : Form) : List String := f.fields.map (·.1)

/-- A name stands for one field. -/
theorem fields_unique (f : Form) {name : String} {g g' : Form}
    (h : (name, g) ∈ f.fields) (h' : (name, g') ∈ f.fields) : g = g' := by
  have hnodup : f.names.Nodup := by
    cases f <;> decide
  exact congrArg Prod.snd (List.inj_on_of_nodup_map hnodup h h' rfl)

-- ============================================================== records

/-- What is inside a field of a form, if it has fields. -/
def inside (f : Form) (field : Option Value) :
    Option (String → Option Value) :=
  field.bind (Value.fields? f.names)

/-- The value of a name inside a field of a form. -/
def inner (f : Form) (field : Option Value) (name : String) : Option Value :=
  field.bind fun v => v.fields f.names name

theorem inner_eq (f : Form) (field : Option Value) (name : String) :
    f.inner field name = (f.inside field).bind (· name) :=
  (Option.bind_assoc ..).symm

/-- Exchanging one item of an array changes at most the field at its
place. -/
theorem inner_exchange (f : Form) (v w : Value) (pre post : List Value) :
    (f.inside (some (.array (pre ++ v :: post)))).isSome
        = (f.inside (some (.array (pre ++ w :: post)))).isSome
      ∧ ∀ n,
        f.inner (some (.array (pre ++ v :: post))) n
            = f.inner (some (.array (pre ++ w :: post))) n
          ∨ f.names[pre.length]? = some n
            ∧ f.inner (some (.array (pre ++ v :: post))) n = some v
            ∧ f.inner (some (.array (pre ++ w :: post))) n = some w := by
  have hlength : (pre ++ w :: post).length = (pre ++ v :: post).length := by
    simp
  simp only [inner_eq, inside, Option.bind_some, Value.fields?, hlength]
  split
  next =>
    exact ⟨rfl, fun n => Value.lookup_zip_exchange n v w f.names pre post⟩
  next => exact ⟨rfl, fun _ => .inl rfl⟩

/-- What is built from the fields inside, if there are any, is told by
their readings. -/
theorem map_inside_congr {f : Form} {α : Type}
    {build : (String → Option Value) → α} {a b : Option Value}
    (hbuild : ∀ get get' : String → Option Value,
      (∀ p ∈ f.fields, p.2.read (get p.1) = p.2.read (get' p.1)) →
        build get = build get')
    (hhas : (f.inside a).isSome = (f.inside b).isSome)
    (h : ∀ p ∈ f.fields,
      p.2.read (f.inner a p.1) = p.2.read (f.inner b p.1)) :
    (f.inside a).map build = (f.inside b).map build := by
  simp only [inner_eq] at h
  cases ha : f.inside a with
  | none =>
      rw [ha] at hhas
      have hb : f.inside b = none := by
        rw [← Option.not_isSome_iff_eq_none, ← hhas]
        exact Bool.false_ne_true
      rw [hb]
  | some get =>
      rw [ha] at hhas h
      obtain ⟨get', hb⟩ := Option.isSome_iff_exists.1 hhas.symm
      rw [hb] at h ⊢
      exact congrArg some (hbuild get get' h)

/-- A record depends on nothing but the readings of its fields and, where
it may be none at all, on whether it has fields. -/
theorem read_congr {f : Form} (hf : f.fields ≠ []) {a b : Option Value}
    (hhas : (f.inside a).isSome = (f.inside b).isSome)
    (h : ∀ p ∈ f.fields,
      p.2.read (f.inner a p.1) = p.2.read (f.inner b p.1)) :
    f.read a = f.read b := by
  cases f with
  -- A point, a style and data are there even if their field is not.
  | point =>
      simp only [fields, List.forall_mem_cons, read] at h
      obtain ⟨hx, hy, _⟩ := h
      show LoosePoint.ofField a = LoosePoint.ofField b
      exact congrArg₂ LoosePoint.mk hx hy
  | styles =>
      have hnames : styles.names = StyleSheet.names := rfl
      simp only [fields, List.forall_mem_cons, read, inner, hnames] at h
      simp only [read, StyleSheet.ofField, h]
  | data =>
      have hnames : data.names = NodeData.names := rfl
      simp only [fields, List.forall_mem_cons, read, inner, hnames] at h
      simp only [read, NodeData.ofField, h]
  -- A node and a document are there only if something is inside.
  | node =>
      have hread (field : Option Value) :
          node.read field = (node.inside field).map Node.ofFields :=
        (Option.map_bind ..).symm
      rw [hread, hread]
      refine map_inside_congr ?_ hhas h
      intro get get' h
      simp only [fields, List.forall_mem_cons, read] at h
      simp only [Node.ofFields, h]
  | document =>
      have hread (field : Option Value) :
          document.read field
            = (document.inside field).map Document.ofFields := rfl
      rw [hread, hread]
      refine map_inside_congr ?_ hhas h
      intro get get' h
      simp only [fields, List.forall_mem_cons, read] at h
      simp only [Document.ofFields, h]
  | _ => exact absurd rfl hf

/-- A value that a record cannot be read from has no fields. -/
theorem fields?_of_not_reads {f : Form} (hf : f.fields ≠ []) {v : Value}
    (h : f.reads v = false) : v.fields? f.names = none := by
  cases f with
  | point | styles | data | node | document =>
      cases v with
      | object ms => cases h
      | array items =>
          refine if_neg ?_
          simpa [reads, names, hf] using h
      | _ => rfl
  | _ => exact absurd rfl hf

-- ============================================================ bad values

theorem filter_isFinite_of_not {x : Option Binary64}
    (h : x.any Binary64.isFinite = false) :
    x.filter Binary64.isFinite = none := by
  cases x with
  | none => rfl
  | some x => exact if_neg (by simpa using h)

/-- A value that cannot be read is read as if it were missing. -/
theorem read_of_not_reads {f : Form} {v : Value} (h : f.reads v = false) :
    f.read (some v) = f.read none := by
  cases f with
  | number =>
      cases v with
      | number n =>
          simp only [reads] at h
          simp [read, Loose.number?, LooseNumber.ofValue,
            LooseNumber.value?, h]
      | string s =>
          simp only [reads, isNumeral] at h
          simp only [read, Loose.number?, LooseNumber.ofValue,
            LooseNumber.value?, Option.bind_some, Option.bind_none]
          exact filter_isFinite_of_not h
      | _ => rfl
  | label =>
      cases v with
      | bool b => cases h
      | number n => cases h
      | string s => cases h
      | _ => rfl
  | kind =>
      cases v with
      | bool b =>
          cases b with
          | false =>
              show Kind.ofName? (Text.keyword "false") = none
              decide +kernel
          | true =>
              show Kind.ofName? (Text.keyword "true") = none
              decide +kernel
      | number n => simpa [reads, read, Loose.text?] using h
      | string s => simpa [reads, read, Loose.text?] using h
      | _ => rfl
  | word =>
      cases v with
      | string s => cases h
      | _ => rfl
  | color =>
      cases v with
      | string s =>
          simpa [reads, read, StyleSheet.color?, Loose.string?] using h
      | _ => rfl
  | paint =>
      cases v with
      | string s => simpa [reads, read, Loose.string?] using h
      | _ => rfl
  | boolean =>
      cases v with
      | bool b => cases h
      | number n =>
          simp only [reads, Bool.or_eq_false_iff] at h
          simp [read, Loose.boolean?, h]
      | string s =>
          simp only [reads, Bool.or_eq_false_iff, decide_eq_false_iff_not]
            at h
          simp [read, Loose.boolean?, h]
      | _ => rfl
  | numbers =>
      cases v with
      | array items => cases h
      | _ => rfl
  | nodes =>
      cases v with
      | array items => cases h
      | _ => rfl
  | point | styles | data | node | document =>
      have hnone := fields?_of_not_reads (by decide) h
      refine read_congr (by decide) ?_ ?_
      · simp [inside, hnone]
      · simp [inner, Value.fields, hnone]

end Form

end TimedOverlay
