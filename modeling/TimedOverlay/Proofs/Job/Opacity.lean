/-
The opacities of a job.

A number is read only if it is finite, so nothing that a style says of an
opacity is without a place in the order of numbers, and all of it can be
held between zero and one when the style becomes that of a shape or a
text. From there to the instructions nothing leaves that range
(`Program.blends_of_mem_compile`), and nothing else is written into the
graph (`Program.marksShares_of_graph?`).
-/
import TimedOverlay.Proofs.Job.Acceptance
import TimedOverlay.Proofs.Job.Components
import TimedOverlay.Proofs.Program.Opacity

namespace TimedOverlay

open Json (Value)

/-- A number that was read, or a default, can be held between zero and
one. -/
theorem Binary64.inUnit_getD_clamp {o : Option Binary64} {x : Binary64}
    (ho : ∀ y, o = some y → y.isFinite = true) (hx : x.isFinite = true) :
    ((o.getD x).clamp 0 1).InUnit := by
  have hfinite : (o.getD x).isFinite = true := by
    cases o with
    | none => exact hx
    | some y => exact ho y rfl
  refine inUnit_clamp ?_
  intro hnan
  rw [hnan] at hfinite
  cases hfinite

-- ================================================================ styles

namespace StyleSheet

/-- A style that says only finite numbers of its opacities. -/
structure Finite (s : StyleSheet) : Prop where
  opacity : ∀ x, s.opacity = some x → x.isFinite = true
  shadowOpacity : ∀ x, s.shadowOpacity = some x → x.isFinite = true

theorem finite_ofField (field : Option Value) : (ofField field).Finite :=
  ⟨fun _ hx => Loose.isFinite_of_number? hx,
    fun _ hx => Loose.isFinite_of_number? hx⟩

variable {s : StyleSheet}

theorem Finite.inUnit_shadow? (h : s.Finite) {d shadow : Shadow}
    (hd : d.opacity.isFinite = true) (hs : s.shadow? d = some shadow) :
    shadow.opacity.InUnit := by
  unfold shadow? at hs
  split at hs
  next =>
    obtain rfl := Option.some.inj hs
    exact Binary64.inUnit_getD_clamp h.shadowOpacity hd
  next => cases hs

theorem Finite.inUnit_shape (h : s.Finite) :
    ∀ x ∈ s.shape.opacities, x.InUnit := by
  intro x hx
  rcases List.mem_cons.1 hx with rfl | hx
  · exact Binary64.inUnit_getD_clamp h.opacity (by decide +kernel)
  · obtain ⟨shadow, hs, rfl⟩ :=
      Option.map_eq_some_iff.1 (Option.mem_toList.1 hx)
    exact h.inUnit_shadow? (by decide +kernel) hs

/-- The background of a text is a shape without its shadow. -/
theorem Finite.inUnit_background? (h : s.Finite) {background : ShapeStyle}
    (hs : s.background? = some background) :
    ∀ x ∈ background.opacities, x.InUnit := by
  unfold background? at hs
  split at hs
  next =>
    split at hs
    next =>
      obtain rfl := Option.some.inj hs
      intro x hx
      obtain rfl := List.mem_singleton.1 hx
      exact h.inUnit_shape _ List.mem_cons_self
    next => cases hs
  next => cases hs

theorem Finite.inUnit_text (h : s.Finite) :
    ∀ x ∈ s.text.opacities, x.InUnit := by
  intro x hx
  rcases List.mem_append.1 hx with hx | hx
  · cases hb : s.text.background with
    | none =>
        rw [hb] at hx
        cases hx
    | some background =>
        rw [hb] at hx
        exact h.inUnit_background? hb x hx
  · obtain ⟨shadow, hs, rfl⟩ :=
      Option.map_eq_some_iff.1 (Option.mem_toList.1 hx)
    exact h.inUnit_shadow? (by decide +kernel) hs

end StyleSheet

-- ================================================================= nodes

theorem Node.inUnit_content {n : Node} (h : n.data.style.Finite)
    (kind : Kind) : ∀ x ∈ (n.content kind).opacities, x.InUnit := by
  cases kind with
  | rectangle => exact h.inUnit_shape
  | circle => exact h.inUnit_shape
  | text => exact h.inUnit_text
  | picture =>
      intro x hx
      cases hx
  | line =>
      intro x hx
      cases hx

-- ============================================================= documents

namespace Document

variable {s : String} {d : Document}

theorem finite_of_ofText (h : ofText s = .ok d) :
    ∀ n ∈ d.nodes, n.data.style.Finite := by
  intro n hn
  obtain ⟨get, rfl⟩ := fields_of_mem_nodes h hn
  exact StyleSheet.finite_ofField _

/-- All opacities of the components of a job are between zero and one. -/
theorem inUnit_of_mem_components (h : ofText s = .ok d) :
    ∀ c ∈ d.components, ∀ x ∈ c.content.opacities, x.InUnit := by
  intro c hc x hx
  obtain ⟨n, hn, b, hb, hplace⟩ := d.mem_components.1 hc
  obtain ⟨kind, -, hcontent, -⟩ := Node.of_component? hb
  have hopacities : c.content.opacities = (n.content kind).opacities := by
    rw [← hplace, ← hcontent]
    rcases d.place_cases b with hb | hb
    · rw [hb]
    · rw [hb, Component.content_scale, Content.opacities_scale]
  rw [hopacities] at hx
  exact Node.inUnit_content (finite_of_ofText h n hn) kind x hx

/-- Whatever a job says, every opacity that it draws with is between zero
and one, however long the video lasts: of filled boxes, of each layer of
a shadow, of backgrounds and letters. In the graph, which is read as one
filter for each instruction, a decimal between zero and one stands behind
every mark of an opacity. -/
theorem opacities_in_unit (h : ofText s = .ok d) (duration : Binary64) :
    (∀ i ∈ (Program.compile duration d.components).instructions,
        ∀ x, i.drawing.opacity? = some x →
          Binary64.le 0 x = true ∧ Binary64.le x 1 = true)
      ∧ ∀ graph, (Program.compile duration d.components).graph? = some graph →
        ∃ parts, FilterGraph.parts? ',' graph.toList = some parts
          ∧ parts.length
            = (Program.compile duration d.components).instructions.length
          ∧ ∀ part ∈ parts, ∃ f, FilterGraph.Filter.read? part = some f
            ∧ ∀ o ∈ f.options, o.1 ≠ "text" →
              ∀ pre alpha, o.2.toList = pre ++ '@' :: alpha →
                IsShare alpha := by
  have hblends : ∀ i ∈ (Program.compile duration d.components).instructions,
      i.drawing.Blends := by
    intro i hi
    exact Program.blends_of_mem_compile duration
      (inUnit_of_mem_components h) hi
  refine ⟨hblends, ?_⟩
  intro graph hgraph
  exact Program.marksShares_of_graph? hblends hgraph

/-- A fill that asks for more than all there is has all of it, and the
layers of a shadow of one half share that half. -/
theorem opacities_in_unit_shaded :
    ∃ d,
      ofText
          ("\x7b\"nodes\":[\x7b\"type\":\"rectangle\",\"width\":9,\"height\":9,"
            ++ "\"data\":\x7b\"timestamps\":[0,5],\"styles\":\x7b\"opacity\":\"7px\","
            ++ "\"borderWidth\":0,\"hasShadow\":1\x7d\x7d\x7d]\x7d")
        = .ok d
      ∧ (Program.compile 8 d.components).instructions.map
          (·.drawing.opacity?.map Binary64.thousandths)
        = [some "0.5", some "0.333", some "1"]
      ∧ ∀ i ∈ (Program.compile 8 d.components).instructions,
        ∀ x, i.drawing.opacity? = some x →
          Binary64.le 0 x = true ∧ Binary64.le x 1 = true := by
  have hread : Json.read
      ("\x7b\"nodes\":[\x7b\"type\":\"rectangle\",\"width\":9,\"height\":9,"
        ++ "\"data\":\x7b\"timestamps\":[0,5],\"styles\":\x7b\"opacity\":\"7px\","
        ++ "\"borderWidth\":0,\"hasShadow\":1\x7d\x7d\x7d]\x7d")
      = .ok (.object [("nodes", .array [.object [("type", .string "rectangle"),
          ("width", .ofNat 9), ("height", .ofNat 9),
          ("data", .object [("timestamps", .array [.ofNat 0, .ofNat 5]),
            ("styles", .object [("opacity", .string "7px"),
              ("borderWidth", .ofNat 0), ("hasShadow", .ofNat 1)])])]])]) := by
    cbv
  have hd := ofText_of_read hread
  refine ⟨_, hd, ?_, ?_⟩
  · decide +kernel
  · exact (opacities_in_unit hd 8).1

end Document

end TimedOverlay
