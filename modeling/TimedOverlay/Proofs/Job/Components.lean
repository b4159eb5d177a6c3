/-
The components of a document, one by one.

Every component of a document is that of one of its nodes, brought from
the canvas to the frame (`Document.mem_components`), so what holds of
each node's component and survives scaling holds of all components.
Scaling changes lengths and nothing else. The nodes of a document that
was read are made of fields (`Document.fields_of_mem_nodes`), and a field
gives finite numbers only.
-/
import TimedOverlay.Job.Document

namespace TimedOverlay

-- =============================================================== reading

theorem Loose.isFinite_of_number? {field : Option Json.Value}
    {x : Binary64} (h : number? field = some x) : x.isFinite = true := by
  obtain ⟨v, -, hv⟩ := Option.bind_eq_some_iff.1 h
  exact (Option.filter_eq_some_iff.1 hv).2

/-- A node of a document that was read has been read from its fields. -/
theorem Document.fields_of_mem_nodes {s : String} {d : Document}
    (h : ofText s = .ok d) {n : Node} (hn : n ∈ d.nodes) :
    ∃ get, n = Node.ofFields get := by
  unfold ofText at h
  cases hs : record.ofText s with
  | error e =>
      rw [hs] at h
      cases h
  | ok vs =>
      rw [hs] at h
      cases h
      unfold ofFields nodesOf at hn
      dsimp only at hn
      split at hn
      next =>
        obtain ⟨v, -, hv⟩ := List.mem_filterMap.1 hn
        obtain ⟨get, -, hget⟩ := Option.map_eq_some_iff.1 hv
        exact ⟨get, hget.symm⟩
      next => cases hn

-- =============================================================== scaling

namespace Component

variable (c : Component) (sx sy : Binary64)

@[simp] theorem visible_scale : (c.scale sx sy).visible = c.visible := rfl

@[simp] theorem timestamps_scale :
    (c.scale sx sy).timestamps = c.timestamps := rfl

@[simp] theorem content_scale :
    (c.scale sx sy).content = c.content.scale sx sy := rfl

end Component

-- ================================================================= nodes

/-- The component of a node: one of its kind, with what the node says and
the defaults for what it does not say. -/
theorem Node.of_component? {n : Node} {c : Component}
    (h : n.component? = some c) :
    ∃ kind, n.kind = some kind
      ∧ c.content = n.content kind
      ∧ c.visible = n.data.visible.getD true
      ∧ c.timestamps = n.data.timestamps := by
  obtain ⟨kind, hkind, rfl⟩ := Option.map_eq_some_iff.1 h
  exact ⟨kind, hkind, rfl, rfl, rfl⟩

theorem Node.component?_of_kind {n : Node} {kind : Kind}
    (h : n.kind = some kind) :
    ∃ c, n.component? = some c
      ∧ c.content = n.content kind
      ∧ c.visible = n.data.visible.getD true
      ∧ c.timestamps = n.data.timestamps := by
  unfold component?
  rw [h]
  exact ⟨_, rfl, rfl, rfl, rfl⟩

-- ============================================================ components

namespace Document

variable (d : Document)

/-- A component in pixels of the frame. -/
def place (c : Component) : Component :=
  if d.canvasScale.1.same 1 && d.canvasScale.2.same 1 then c
  else c.scale d.canvasScale.1 d.canvasScale.2

/-- A placed component is scaled, or it is left as it was. -/
theorem place_cases (c : Component) :
    d.place c = c
      ∨ d.place c = c.scale d.canvasScale.1 d.canvasScale.2 := by
  unfold place
  split
  next => exact .inl rfl
  next => exact .inr rfl

/-- The components are those of the nodes, each of them placed. -/
theorem mem_components {c : Component} :
    c ∈ d.components
      ↔ ∃ n ∈ d.nodes, ∃ b, n.component? = some b ∧ d.place b = c := by
  show c ∈ (d.nodes.filterMap Node.component?).map d.place ↔ _
  rw [List.mem_map]
  constructor
  · rintro ⟨b, hb, hplace⟩
    obtain ⟨n, hn, hcomponent⟩ := List.mem_filterMap.1 hb
    exact ⟨n, hn, b, hcomponent, hplace⟩
  · rintro ⟨n, hn, b, hcomponent, hplace⟩
    exact ⟨b, List.mem_filterMap.2 ⟨n, hn, hcomponent⟩, hplace⟩

/-- What scaling does not change of the components is what the nodes
have. -/
theorem exists_mem_components {P : Component → Prop}
    (hscale : ∀ c sx sy, P (Component.scale sx sy c) ↔ P c) :
    (∃ c ∈ d.components, P c)
      ↔ ∃ n ∈ d.nodes, ∃ c, n.component? = some c ∧ P c := by
  have hplace (c : Component) : P (d.place c) ↔ P c := by
    rcases d.place_cases c with hc | hc
    · rw [hc]
    · rw [hc, hscale]
  constructor
  · rintro ⟨c, hc, hP⟩
    obtain ⟨n, hn, b, hb, rfl⟩ := d.mem_components.1 hc
    exact ⟨n, hn, b, hb, (hplace b).1 hP⟩
  · rintro ⟨n, hn, b, hb, hP⟩
    exact ⟨d.place b, d.mem_components.2 ⟨n, hn, b, hb, rfl⟩,
      (hplace b).2 hP⟩

end Document

end TimedOverlay
