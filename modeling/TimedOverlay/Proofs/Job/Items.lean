/-
Which items of a document are nodes.

A node may be written as an object or as an array of its fields, and it
gives a component if it names a kind. Only a text can name one
(`Kind.read_eq`): a truth value or a number is read as a text, too, but
has none of the letters that tell the kinds. So the components are one
for each item that names a kind in either form, in order, and only
objects have one exactly if no array names a kind
(`Document.components_of_objects_iff`).
-/
import TimedOverlay.Proofs.FilterGraph.Values
import TimedOverlay.Proofs.Job.Acceptance
import TimedOverlay.Proofs.Job.Components
import TimedOverlay.Proofs.Text.Classes

namespace TimedOverlay

open Json (Value)

-- ========================================================= number texts

namespace Decimal

/-- The characters of a number in a data format. -/
def isNumberMark (c : Char) : Bool :=
  c.isDigit || c = '-' || c = '+' || c = '.' || c = 'e'

theorem isNumberMark_digit {c : Char} (h : c.isDigit = true) :
    isNumberMark c = true := by
  simp [isNumberMark, h]

/-- Folded, the characters of a number are none of these letters. -/
theorem toLower_of_isNumberMark {c : Char} (h : isNumberMark c = true) :
    c.toLower ≠ 't' ∧ c.toLower ≠ 'i' := by
  simp only [isNumberMark, Bool.or_eq_true, decide_eq_true_eq] at h
  rcases h with (((hdigit | rfl) | rfl) | rfl) | rfl
  · rw [Text.toLower_of_isDigit hdigit]
    constructor
    · rintro rfl
      cases hdigit
    · rintro rfl
      cases hdigit
  · decide
  · decide
  · decide
  · decide

theorem isNumberMark_toDigits (n : Nat) :
    ∀ c ∈ Nat.toDigits 10 n, isNumberMark c = true := fun _ hc =>
  isNumberMark_digit
    (Nat.isDigit_of_mem_toDigits (by decide) (by decide) hc)

/-- Stripping takes away the zeros at the end and nothing else. -/
theorem isNumberMark_strip {digits : List Char} (e : Int)
    (h : ∀ c ∈ digits, isNumberMark c = true) :
    ∀ c ∈ (strip digits e).1, isNumberMark c = true := by
  intro c hc
  have hkept := (List.dropWhile_sublist _).mem (List.mem_reverse.1 hc)
  exact h c (List.mem_reverse.1 hkept)

/-- Laid out as a number, digits have nothing between and around them but
zeros and the marks of a number. -/
theorem isNumberMark_layout {digits : List Char} (e : Int)
    (h : ∀ c ∈ digits, isNumberMark c = true) :
    ∀ c ∈ layout digits e, isNumberMark c = true := by
  have hzeros (n : Nat) : ∀ c ∈ List.replicate n '0', isNumberMark c = true :=
    fun c hc => by rw [List.eq_of_mem_replicate hc]; rfl
  have htake (n : Nat) : ∀ c ∈ digits.take n, isNumberMark c = true :=
    fun c hc => h c (List.mem_of_mem_take hc)
  have hdrop (n : Nat) : ∀ c ∈ digits.drop n, isNumberMark c = true :=
    fun c hc => h c (List.mem_of_mem_drop hc)
  have hpoint : isNumberMark '.' = true := rfl
  have hzero : isNumberMark '0' = true := rfl
  unfold layout
  dsimp only
  split
  next =>
    split
    next =>
      simp only [List.forall_mem_append, List.forall_mem_cons]
      exact ⟨⟨h, hzeros _⟩, hpoint, hzero, List.forall_mem_nil _⟩
    next =>
      split
      next =>
        simp only [List.forall_mem_append, List.forall_mem_cons]
        exact ⟨htake _, hpoint, hdrop _⟩
      next =>
        simp only [List.cons_append, List.forall_mem_append,
          List.forall_mem_cons]
        exact ⟨hzero, hpoint, hzeros _, h⟩
  next =>
    have hsign (p : Prop) [Decidable p] :
        isNumberMark (if p then '-' else '+') = true := by
      split
      next => rfl
      next => rfl
    simp only [List.forall_mem_append, List.forall_mem_cons]
    refine ⟨⟨htake 1, ?_⟩, rfl, hsign _, isNumberMark_toDigits _⟩
    -- A point stands only where digits follow.
    have hrest := hdrop 1
    split
    next => exact List.forall_mem_nil _
    next => exact List.forall_mem_cons.2 ⟨hpoint, hrest⟩

end Decimal

/-- The text of a finite number is made of digits and the marks of a
number. -/
theorem Binary64.isNumberMark_shortestText (s : Bool) (m : Magnitude) :
    ∀ c ∈ (Binary64.finite s m).shortestText.toList,
      Decimal.isNumberMark c = true := by
  have hsign : ∀ c ∈ (if s then ['-'] else []),
      Decimal.isNumberMark c = true := by
    cases s with
    | true => exact List.forall_mem_singleton.2 rfl
    | false => exact List.forall_mem_nil _
  unfold shortestText
  dsimp only
  rw [String.toList_ofList, List.forall_mem_append]
  refine ⟨hsign, ?_⟩
  split
  next =>
    simp only [List.forall_mem_cons]
    exact ⟨rfl, rfl, rfl, List.forall_mem_nil _⟩
  next =>
    generalize Decimal.shortest m = d
    exact Decimal.isNumberMark_layout _
      (Decimal.isNumberMark_strip d.exponent
        (Decimal.isNumberMark_toDigits d.coefficient))

-- ================================================================= kinds

namespace Kind

/-- The kind that a value names: a text names it in any case and between
blanks. -/
def named? : Value → Option Kind
  | .string s => ofName? (Text.keyword s)
  | _ => none

/-- Every name of a kind has one of two letters that no number has. -/
theorem name_marked (k : Kind) :
    't' ∈ k.name.toList ∨ 'i' ∈ k.name.toList := by
  cases k <;> decide +kernel

/-- A text with the characters of a number names no kind. -/
theorem ofName?_keyword_of_marks {s : String}
    (h : ∀ c ∈ s.toList, Decimal.isNumberMark c = true) :
    ofName? (Text.keyword s) = none := by
  have hletters : ∀ c ∈ (Text.keyword s).toList, c ≠ 't' ∧ c ≠ 'i' := by
    intro c hc
    rw [Text.keyword, String.toList_ofList, Text.fold] at hc
    obtain ⟨d, hd, rfl⟩ := List.mem_map.1 hc
    exact Decimal.toLower_of_isNumberMark (h d (Text.mem_of_mem_trim hd))
  rw [Option.eq_none_iff_forall_ne_some]
  intro k hk
  have hname : k.name = Text.keyword s := by
    simpa using List.find?_some hk
  rw [← hname] at hletters
  rcases k.name_marked with ht | hi
  · exact (hletters _ ht).1 rfl
  · exact (hletters _ hi).2 rfl

theorem ofName?_number (n : Json.Number) :
    ofName? (Text.keyword n.text) = none := by
  cases n with
  | integer n =>
      refine ofName?_keyword_of_marks fun c hc => ?_
      rcases FilterGraph.mem_toString_int hc with rfl | hdigit
      · rfl
      · exact Decimal.isNumberMark_digit hdigit
  | real x =>
      cases x with
      | nan => decide +kernel
      | infinite s => cases s <;> decide +kernel
      | finite s m =>
          exact ofName?_keyword_of_marks (Binary64.isNumberMark_shortestText s m)

/-- A field is read as the kind that its value names. -/
theorem read_eq (field : Option Value) :
    ((Loose.text? field).bind fun s => ofName? (Text.keyword s))
      = field.bind named? := by
  cases field with
  | none => rfl
  | some v =>
      cases v with
      | bool b => cases b <;> decide +kernel
      | number n =>
          have hnone : (some (Value.number n)).bind named? = none := rfl
          rw [hnone, Loose.text?, Option.bind_some]
          exact ofName?_number n
      | _ => rfl

end Kind

-- ================================================================= items

/-- Whether a value is an object. -/
def Json.Value.isObject : Value → Bool
  | .object _ => true
  | _ => false

namespace Node

/-- The kind that an object names as its type. -/
def objectKind? : Value → Option Kind
  | .object ms => (Value.last? "type" ms).bind Kind.named?
  | _ => none

/-- The kind that an array names as its type, if it is no longer than a
node has fields: by its second item. -/
def arrayKind? : Value → Option Kind
  | .array vs => if vs.length ≤ 6 then vs[1]?.bind Kind.named? else none
  | _ => none

theorem objectKind?_of_not_isObject {item : Value}
    (h : item.isObject = false) : objectKind? item = none := by
  cases item with
  | object ms => cases h
  | _ => rfl

/-- The second item of an array stands for the type. -/
theorem lookup_type (vs : List Value) :
    (names.zip vs).lookup "type" = vs[1]? := by
  rcases vs with _ | ⟨_, _ | ⟨_, _⟩⟩
  · rfl
  · rfl
  · rfl

/-- The kind of an item is the one that it names, as an object or as an
array; no other item is a node of a known kind. -/
theorem kind_ofValue? (item : Value) :
    (ofValue? item).bind (·.kind)
      = (objectKind? item).or (arrayKind? item) := by
  cases item with
  | object ms =>
      show ((Loose.text? (Value.last? "type" ms)).bind _) = _
      rw [Kind.read_eq]
      exact (Option.or_none ..).symm
  | array vs =>
      show (((if vs.length ≤ 6 then some fun name => (names.zip vs).lookup name
          else none).map ofFields).bind (·.kind))
        = if vs.length ≤ 6 then vs[1]?.bind Kind.named? else none
      split
      next =>
        show ((Loose.text? ((names.zip vs).lookup "type")).bind _) = _
        rw [Kind.read_eq, lookup_type]
      next => rfl
  | null | bool _ | number _ | string _ => rfl

end Node

-- ============================================================ components

/-- Taking out members changes what is made of a list exactly if
something was made of one of them. -/
theorem filterMap_filter_eq_iff {α β : Type} {f : α → Option β}
    {p : α → Bool} {l : List α} :
    l.filterMap f = (l.filter p).filterMap f
      ↔ ∀ a ∈ l, p a = false → f a = none := by
  induction l with
  | nil => simp
  | cons a rest ih =>
      rw [List.forall_mem_cons, ← ih]
      cases hp : p a with
      | true =>
          rw [List.filter_cons_of_pos hp]
          cases hf : f a with
          | none => simp [hf]
          | some b => simp [hf]
      | false =>
          rw [List.filter_cons_of_neg (by simp [hp])]
          cases hf : f a with
          | none => simp [hf]
          | some b =>
              -- What is made of the rest alone is too short.
              have hshort := ((List.filter_sublist (p := p)
                (l := rest)).filterMap f).length_le
              rw [List.filterMap_cons_some hf]
              constructor
              · intro heq
                have hlong := congrArg List.length heq
                rw [List.length_cons] at hlong
                omega
              · intro hnone
                cases hnone.1 rfl

namespace Document

variable (d : Document)

/-- The component of an item, if it is a node of a known kind. -/
def component? (item : Value) : Option Component :=
  ((Node.ofValue? item).bind Node.component?).map d.place

/-- Placing a component does not change its kind. -/
theorem kind_place (c : Component) :
    (d.place c).content.kind = c.content.kind := by
  rcases d.place_cases c with hsame | hscaled
  · rw [hsame]
  · rw [hscaled, Component.content_scale]
    cases c.content <;> rfl

/-- The component of an item is of the kind that the item names. -/
theorem kind_component? (item : Value) :
    (d.component? item).map (·.content.kind)
      = (Node.objectKind? item).or (Node.arrayKind? item) := by
  have hkind (n : Node) :
      n.component?.map (fun c => (d.place c).content.kind) = n.kind := by
    cases hn : n.kind with
    | none => simp [Node.component?, hn]
    | some kind =>
        obtain ⟨c, hc, hcontent, -⟩ := Node.component?_of_kind hn
        rw [hc, Option.map_some, d.kind_place, hcontent]
        cases kind <;> rfl
  rw [← Node.kind_ofValue?]
  unfold component?
  rw [Option.map_map, Option.map_bind]
  congr 1
  funext n
  exact hkind n

/-- An accepted document whose nodes are an array has one component for
each item that names a known kind, in the order of the items: an object
names it as its type, an array of at most six items by its second. All
other items give none. So only the objects give components exactly if no
array among the items names a kind. -/
theorem components_of_objects_iff {s : String}
    {vs : List (String × Value)} {items : List Value}
    (h : record.ofText s = .ok vs)
    (hnodes : vs.lookup "nodes" = some (.array items)) :
    ∃ d, ofText s = .ok d
      ∧ d.components = items.filterMap d.component?
      ∧ (∀ item, (d.component? item).map (·.content.kind)
          = (Node.objectKind? item).or (Node.arrayKind? item))
      ∧ (d.components = (items.filter Value.isObject).filterMap d.component?
        ↔ ∀ item ∈ items, Node.arrayKind? item = none) := by
  have hd : ofText s = .ok (ofFields fun name => vs.lookup name) := by
    unfold ofText
    rw [h]
    rfl
  generalize hfields : ofFields (fun name => vs.lookup name) = d at hd
  have hcomponents : d.components = items.filterMap d.component? := by
    have hread : d.nodes = items.filterMap Node.ofValue? := by
      rw [← hfields]
      show nodesOf (vs.lookup "nodes") = _
      rw [hnodes]
      rfl
    show (d.nodes.filterMap Node.component?).map d.place = _
    rw [hread, List.filterMap_filterMap, List.map_filterMap]
    rfl
  refine ⟨d, hd, hcomponents, d.kind_component?, ?_⟩
  rw [hcomponents, filterMap_filter_eq_iff]
  have hnone (item : Value) : d.component? item = none
      ↔ (Node.objectKind? item).or (Node.arrayKind? item) = none := by
    rw [← d.kind_component?, Option.map_eq_none_iff]
  constructor
  · intro hall item hitem
    cases item with
    | object ms => rfl
    | _ => exact (Option.or_eq_none_iff.1
        ((hnone _).1 (hall _ hitem rfl))).2
  · intro hall item hitem hother
    rw [hnone, Node.objectKind?_of_not_isObject hother, hall item hitem]
    rfl

/-- Items of every sort: a circle, an array that is a rectangle, and what
is no node of a known kind. -/
def sundries : List Value :=
  [.object [("type", .string " Circle ")],
    .array [.string "r", .string "rectangle"], .number (.integer 7), .null,
    .string "text", .object [("type", .bool true)], .array []]

/-- A document with these items. -/
def sundriesText : String :=
  "\x7b\"nodes\":[\x7b\"type\":\" Circle \"\x7d,"
    ++ "[\"r\",\"rectangle\"],7,null,\"text\","
    ++ "\x7b\"type\":true\x7d,[]]\x7d"

/-- Of these, the circle and the array that is a rectangle are drawn; with
objects only it would be the circle alone. -/
theorem components_of_objects_sundries :
    ∃ (vs : List (String × Value)) (d : Document),
      record.ofText sundriesText = .ok vs
        ∧ vs.lookup "nodes" = some (.array sundries)
        ∧ ofText sundriesText = .ok d
        ∧ d.components.map (·.content.kind) = [.circle, .rectangle]
        ∧ d.components
          ≠ (sundries.filter Value.isObject).filterMap d.component? := by
  have htext : record.ofText sundriesText
      = .ok [("nodes", .array sundries)] := by
    cbv
  obtain ⟨d, hd, hcomponents, hkind, honly⟩ :=
    components_of_objects_iff htext rfl
  refine ⟨_, d, htext, rfl, hd, ?_, ?_⟩
  · rw [hcomponents, List.map_filterMap]
    simp only [hkind]
    decide +kernel
  · intro heq
    have hnone := honly.1 heq (.array [.string "r", .string "rectangle"])
      (by simp [sundries])
    exact absurd hnone (by decide +kernel)

/-- An array is drawn although it is no object. -/
theorem components_of_array :
    ∃ d,
      ofText "\x7b\"nodes\":[[\"r\",\"rectangle\",[10,20],30,40]]\x7d"
          = .ok d
        ∧ d.components.map (·.content.kind) = [.rectangle]
        ∧ d.components.map (·.size) = [⟨30, 40⟩] := by
  have hread : Json.read
      "\x7b\"nodes\":[[\"r\",\"rectangle\",[10,20],30,40]]\x7d"
      = .ok (.object [("nodes", .array [.array [.string "r",
          .string "rectangle", .array [.ofNat 10, .ofNat 20], .ofNat 30,
          .ofNat 40]])]) := by
    cbv
  rw [ofText_of_read hread]
  exact ⟨_, rfl, by decide +kernel, by decide +kernel⟩

end Document

end TimedOverlay
