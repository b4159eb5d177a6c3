/-
Times that are copied from a program.

What a program shows of a time is read as a time that is shown the same
way (`Binary64.exists_reread`), if it is copied to a document as a text,
or as a number that JSON reads as the nearest double, which it does if
there are not too many thousandths (`Binary64.exists_copied`). An
instruction shows nothing of its window but the gate, so a node with such
times is drawn by instructions that read the same
(`Component.Retimed.compile`). And a job some of whose nodes have their
times copied from its own program has a program that reads the same
(`Job.shown_again`). With more thousandths than a double can count, a copy
that is a number can be read as another time and shown as that
(`Job.bare_copy_shown_otherwise`).
-/
import Mathlib
import TimedOverlay.Proofs.Decimal.Rereading
import TimedOverlay.Proofs.Job.Respelling
import TimedOverlay.Proofs.Program.Composition
import TimedOverlay.Proofs.Program.Gating
import TimedOverlay.Proofs.Program.Windows

namespace TimedOverlay

open Json (Value Numeral)

-- ================================================================= times

namespace Binary64

/-- What a program shows of a time, as the value of a text, or as a number
that JSON reads as the double that is spelled. -/
inductive Copied (x : Binary64) : Value → Prop where
  | text : Copied x (.string x.thousandths)
  | number {k : Json.Number}
      (hread : Json.read x.thousandths = .ok (.number k))
      (hnearest : numeral? x.thousandths.toList = some k.toBinary64) :
      Copied x (.number k)

/-- What is shown of a number is a numeral, and copies of it are read as
the same finite number, which is shown the same way. -/
theorem exists_reread (x : Binary64) :
    ∃ y : Binary64, y.isFinite = true ∧ y.thousandths = x.thousandths
      ∧ numeral? x.thousandths.toList = some y
      ∧ ∀ v, x.Copied v → Loose.number? (some v) = some y := by
  obtain ⟨n, hx, hfinite, hagain⟩ := x.exists_stable
  have hchars := Numeral.ofList_chars_ofThousandths n
  generalize Numeral.ofThousandths n = m at hfinite hagain hchars
  have hvalue : (some m.nearest).filter isFinite = some m.nearest := by
    rw [Option.filter_some, if_pos hfinite]
  have hnumeral : numeral? x.thousandths.toList = some m.nearest := by
    rw [hx, ← hchars, String.toList_ofList, Numeral.numeral?_chars]
  rw [hnumeral, hx]
  refine ⟨m.nearest, hfinite, hagain, rfl, fun v hv => ?_⟩
  rw [Loose.number?, Option.bind_some]
  cases hv with
  | text =>
      have hspells := Numeral.Spells.number (n := m) [] []
        Text.blank_nil Text.blank_nil
      rw [List.nil_append, List.append_nil, hchars, ← hx] at hspells
      rw [Numeral.value?_of_spells hspells, hvalue]
  | number hread hnearest =>
      have hsame := Option.some.inj (hnumeral.symm.trans hnearest)
      rw [hsame] at hvalue ⊢
      exact hvalue

/-- Fewer thousandths than a double can count, and whole numbers of 64 bits,
can be copied as numbers. -/
theorem exists_copied {x : Binary64} {n : ℤ}
    (hx : x.thousandths = thousandthsText n)
    (h : n.natAbs < 2 ^ 53 ∨ n.natAbs % 1000 = 0 ∧ n.natAbs < 1000 * 2 ^ 64) :
    ∃ k, Json.read x.thousandths = .ok (.number k) ∧ x.Copied (.number k) := by
  obtain ⟨k, hread, hnearest⟩ :=
    Json.exists_read (Numeral.roundedOnce_ofThousandths h)
  rw [Numeral.ofList_chars_ofThousandths, ← hx] at hread
  refine ⟨k, hread, .number hread ?_⟩
  rw [hx, ← Numeral.ofList_chars_ofThousandths, String.toList_ofList,
    Numeral.numeral?_chars, hnearest]

theorem Copied.thousandths {x : Binary64} {v : Value} (h : x.Copied v) :
    (Loose.number? (some v)).map Binary64.thousandths
      = some x.thousandths := by
  obtain ⟨y, -, hsame, -, hread⟩ := x.exists_reread
  rw [hread v h, Option.map_some, hsame]

/-- A value at the place of a time, and what may stand there instead: the
value itself, or a copy of what is shown of the time. -/
def Recopied (v w : Value) : Prop :=
  w = v ∨ ∃ x : Binary64, Loose.number? (some v) = some x ∧ x.Copied w

theorem Recopied.thousandths {v w : Value} (h : Recopied v w) :
    (Loose.number? (some w)).map Binary64.thousandths
      = (Loose.number? (some v)).map Binary64.thousandths := by
  rcases h with rfl | ⟨x, hx, hcopied⟩
  · rfl
  · rw [hx, hcopied.thousandths, Option.map_some]

/-- What is shown of a list of times is told by what is shown of each. -/
theorem map_thousandths_numbers {α : Type} {R : α → Value → Prop}
    {shown : α → Option String} {as : List α} {ws : List Value}
    (h : List.Forall₂ R as ws)
    (hR : ∀ a w, R a w →
      (Loose.number? (some w)).map thousandths = shown a) :
    (Loose.numbers (some (.array ws))).map thousandths
      = as.filterMap shown := by
  unfold Loose.numbers
  rw [List.map_filterMap]
  induction h with
  | nil => rfl
  | cons hfirst _ ih =>
      rw [List.filterMap_cons, List.filterMap_cons, hR _ _ hfirst, ih]

/-- Copies of times are shown as the times are. -/
theorem map_thousandths_copied {xs : List Binary64} {vs : List Value}
    (h : List.Forall₂ Copied xs vs) :
    (Loose.numbers (some (.array vs))).map thousandths
      = xs.map thousandths := by
  rw [map_thousandths_numbers h fun _ _ => Copied.thousandths]
  exact congrFun List.filterMap_eq_map xs

theorem map_thousandths_recopied {vs ws : List Value}
    (h : List.Forall₂ Recopied vs ws) :
    (Loose.numbers (some (.array ws))).map thousandths
      = (Loose.numbers (some (.array vs))).map thousandths := by
  rw [map_thousandths_numbers h fun _ _ => Recopied.thousandths]
  exact (List.map_filterMap ..).symm

end Binary64

-- ============================================================== programs

namespace Window

/-- Gates show nothing of the times but their thousandths. -/
theorem map_gate_resolve (duration : Binary64) {xs ys : List Binary64}
    (h : ys.map Binary64.thousandths = xs.map Binary64.thousandths) :
    (resolve duration ys).map gate = (resolve duration xs).map gate := by
  fun_induction resolve duration xs generalizing ys with
  | case1 =>
      obtain rfl := List.map_eq_nil_iff.1 h
      rfl
  | case2 start =>
      obtain ⟨y, rfl, hy⟩ : ∃ y, ys = [y]
          ∧ y.thousandths = start.thousandths := by
        simpa [List.map_eq_singleton_iff] using h
      show [gate _] = [gate _]
      simp only [gate, hy]
  | case3 start stop rest ih =>
      obtain ⟨y, z, ys, rfl, hy, hz, hrest⟩ : ∃ y z zs, ys = y :: z :: zs
          ∧ y.thousandths = start.thousandths
          ∧ z.thousandths = stop.thousandths
          ∧ zs.map Binary64.thousandths = rest.map Binary64.thousandths := by
        simpa [List.map_eq_cons_iff] using h
      rw [resolve, List.map_cons, List.map_cons, ih hrest]
      simp only [gate, hy, hz]

end Window

/-- The text of the filter that draws behind a gate. -/
def Drawing.textBehind (gate : String) (d : Drawing) : String :=
  d.filterName ++ "="
    ++ String.intercalate ":" ((d.options ++ [("enable", "'" ++ gate ++ "'")])
      |>.map fun (n, v) => n ++ "=" ++ v)

theorem Instruction.text_eq (i : Instruction) :
    i.text = i.drawing.textBehind i.window.gate := rfl

namespace Component

variable (c e : Component)

theorem map_text_synthesize (ws : List Window) :
    (c.synthesize ws).map Instruction.text
      = (ws.map Window.gate).flatMap fun g =>
          c.shown.map (Drawing.textBehind g) := by
  rw [synthesize_eq_flatMap, List.map_flatMap, List.flatMap_map]
  simp only [List.map_map, Function.comp_def, Instruction.text_eq]

/-- A component with other times. -/
def withTimes (ts : List Binary64) : Component := { c with timestamps := ts }

/-- Components that differ in nothing but their times, which are shown
the same way. -/
inductive Retimed (c : Component) : Component → Prop where
  | times {ts : List Binary64}
      (h : ts.map Binary64.thousandths
        = c.timestamps.map Binary64.thousandths) : Retimed c (c.withTimes ts)

variable {c e}

/-- They are shown in windows that read the same, by instructions that
read the same. -/
theorem Retimed.compile (h : c.Retimed e) (duration : Binary64) :
    (e.compile duration).windows.map Window.gate
        = (c.compile duration).windows.map Window.gate
      ∧ (e.compile duration).instructions.map Instruction.text
        = (c.compile duration).instructions.map Instruction.text := by
  cases h with
  | times h =>
      have hgates := Window.map_gate_resolve duration h
      refine ⟨hgates, ?_⟩
      show ((c.withTimes _).synthesize _).map _ = (c.synthesize _).map _
      rw [map_text_synthesize, map_text_synthesize]
      exact congrArg (List.flatMap _) hgates

theorem Retimed.scale (h : c.Retimed e) (sx sy : Binary64) :
    (Component.scale sx sy c).Retimed (Component.scale sx sy e) := by
  cases h with
  | times h => exact .times h

end Component

namespace Program

/-- A graph is told by the texts of the filters in it. -/
theorem graph?_congr {p q : Program}
    (h : q.instructions.map Instruction.text
      = p.instructions.map Instruction.text) : q.graph? = p.graph? := by
  unfold graph?
  cases hq : q.instructions with
  | nil =>
      rw [hq] at h
      rw [List.map_eq_nil_iff.1 h.symm]
  | cons i is =>
      cases hp : p.instructions with
      | nil =>
          rw [hq, hp] at h
          cases h
      | cons j js =>
          rw [hq, hp] at h
          exact congrArg (fun ts => some (String.intercalate "," ts)) h

theorem graph?_compile_of_retimed (duration : Binary64)
    {cs es : List Component} (h : List.Forall₂ Component.Retimed cs es) :
    (compile duration es).graph? = (compile duration cs).graph? := by
  refine graph?_congr ?_
  rw [instructions_compile, instructions_compile, List.map_flatMap,
    List.map_flatMap]
  induction h with
  | nil => rfl
  | cons hfirst _ ih =>
      rw [List.flatMap_cons, List.flatMap_cons, (hfirst.compile duration).2,
        ih]

end Program

-- ============================================================= documents

namespace Node

/-- A node with other times. -/
def withTimes (n : Node) (ts : List Binary64) : Node :=
  { n with data := { n.data with timestamps := ts } }

/-- Nodes that differ in nothing but their times, which are shown the same
way. -/
inductive Retimed (n : Node) : Node → Prop where
  | times {ts : List Binary64}
      (h : ts.map Binary64.thousandths
        = n.data.timestamps.map Binary64.thousandths) :
      Retimed n (n.withTimes ts)

theorem Retimed.refl (n : Node) : n.Retimed n := .times (n := n) rfl

theorem Retimed.component? {n m : Node} (h : n.Retimed m) :
    Option.Rel Component.Retimed n.component? m.component? := by
  cases h with
  | @times ts h =>
      have hcomponent : (n.withTimes ts).component?
          = n.component?.map (·.withTimes ts) := by
        unfold Node.component?
        rw [Option.map_map]
        rfl
      rw [hcomponent]
      cases hc : n.component? with
      | none => exact .none
      | some c =>
          obtain ⟨kind, -, rfl⟩ := Option.map_eq_some_iff.1 hc
          exact .some (.times h)

/-- The data of a node with these values for its times. -/
def dataWith (ms ns : List (String × Value)) (times : List Value) : Value :=
  .object (ms ++ ("timestamps", .array times) :: ns)

/-- The values of two nodes that differ in nothing but their times, of
which some have been copied. -/
inductive Recopied : Value → Value → Prop where
  | same (v : Value) : Recopied v v
  | times {pre post ms ns : List (String × Value)} {vs ws : List Value}
      (h : List.Forall₂ Binary64.Recopied vs ws) :
      Recopied
        (.object (pre ++ ("data", dataWith ms ns vs) :: post))
        (.object (pre ++ ("data", dataWith ms ns ws) :: post))

/-- An exchange is seen under its own name only. -/
theorem last?_exchange_of_ne {n name : String} (hne : n ≠ name)
    (v w : Value) (pre post : List (String × Value)) :
    Value.last? n (pre ++ (name, w) :: post)
      = Value.last? n (pre ++ (name, v) :: post) := by
  rcases Value.last?_exchange n name w v pre post with hsame | ⟨hname, -, -⟩
  · exact hsame
  · exact absurd hname hne

/-- Data that differ in nothing but their times, which are shown the same
way. -/
def Retells (d e : NodeData) : Prop :=
  ∃ ts, e = { d with timestamps := ts }
    ∧ ts.map Binary64.thousandths = d.timestamps.map Binary64.thousandths

theorem retells_ofField {vs ws : List Value}
    (h : List.Forall₂ Binary64.Recopied vs ws)
    (ms ns : List (String × Value)) :
    Retells (.ofField (some (dataWith ms ns vs)))
      (.ofField (some (dataWith ms ns ws))) := by
  have hother {name : String} (hne : name ≠ "timestamps") :=
    last?_exchange_of_ne hne (.array vs) (.array ws) ms ns
  refine ⟨Loose.numbers (Value.last? "timestamps"
    (ms ++ ("timestamps", .array ws) :: ns)), ?_, ?_⟩
  · simp [NodeData.ofField, dataWith, Value.fields, Value.fields?, hother]
  · show _ = (Loose.numbers (Value.last? "timestamps"
      (ms ++ ("timestamps", .array vs) :: ns))).map Binary64.thousandths
    -- Later times hide the ones that have been exchanged.
    rcases Value.last?_exchange "timestamps" "timestamps" (.array vs)
      (.array ws) ms ns with hsame | ⟨-, hv, hw⟩
    · rw [hsame]
    · rw [hv, hw, Binary64.map_thousandths_recopied h]

theorem retimed_ofFields {get new : String → Option Value}
    (hother : ∀ name, name ≠ "data" → new name = get name)
    (hdata : Retells (.ofField (get "data")) (.ofField (new "data"))) :
    (ofFields get).Retimed (ofFields new) := by
  obtain ⟨ts, hts, hshown⟩ := hdata
  have hnode : ofFields new = (ofFields get).withTimes ts := by
    simp [ofFields, withTimes, hother, hts]
  rw [hnode]
  exact .times hshown

theorem Recopied.ofValue? {v w : Value} (h : Recopied v w) :
    Option.Rel Retimed (ofValue? v) (ofValue? w) := by
  cases h with
  | same v =>
      cases Node.ofValue? v with
      | none => exact .none
      | some n => exact .some (.refl n)
  | @times pre post ms ns vs ws h =>
      refine .some (retimed_ofFields
        (fun name hne => last?_exchange_of_ne hne _ _ pre post) ?_)
      rcases Value.last?_exchange "data" "data" (dataWith ms ns vs)
        (dataWith ms ns ws) pre post with hsame | ⟨-, hv, hw⟩
      · rw [hsame]
        exact ⟨_, rfl, rfl⟩
      · rw [hv, hw]
        exact retells_ofField h ms ns

end Node

-- ================================================================== jobs

namespace Job

open Binary64 (Copied)

variable (id : String) (known : Option Media)
  (top : String → Option Value) {items items' : List Value}

theorem components_retimed (h : List.Forall₂ Node.Recopied items items') :
    List.Forall₂ Component.Retimed (ofItems id known top items).components
      (ofItems id known top items').components := by
  have hnodes :=
    List.rel_filterMap (fun _ _ hvw => Node.Recopied.ofValue? hvw) h
  show List.Forall₂ _ (Document.ofFields _).components
    (Document.ofFields _).components
  rw [Document.components_withNodes, Document.components_withNodes]
  refine List.rel_map (fun c e hce => ?_)
    (List.rel_filterMap (fun _ _ hnm => Node.Retimed.component? hnm) hnodes)
  split
  next => exact hce
  next => exact hce.scale _ _

/-- What is shown of a number is read as a finite number that is shown the
same way, by the reader of numerals and, as a text or as a number that JSON
reads as the nearest double, by that of a job document. Up to the
thousandths that a double can count, and up to the whole numbers of 64
bits, every number is such a number. So windows of which the ends are
copied to a document are gated the same way, whatever the duration; and if
times of a document are exchanged for copies of what is shown of them, its
components are shown in windows that read the same, and its program has the
same graph. -/
theorem shown_again :
    (∀ x : Binary64, ∃ y : Binary64, y.isFinite = true
      ∧ y.thousandths = x.thousandths
      ∧ Binary64.numeral? x.thousandths.toList = some y
      ∧ ∀ v, x.Copied v → Loose.number? (some v) = some y)
    ∧ (∀ (x : Binary64) (n : ℤ), x.thousandths = Binary64.thousandthsText n →
      n.natAbs < 2 ^ 53 ∨ n.natAbs % 1000 = 0 ∧ n.natAbs < 1000 * 2 ^ 64 →
      ∃ k, Json.read x.thousandths = .ok (.number k) ∧ x.Copied (.number k))
    ∧ (∀ (windows : List Window) (vs : List Value),
      List.Forall₂ Copied (Window.ends windows) vs →
      ∀ duration,
        (Window.resolve duration
            (Loose.numbers (some (.array vs)))).map Window.gate
          = windows.map Window.gate)
    ∧ ∀ (id : String) (known : Option Media) (top : String → Option Value)
        (items items' : List Value),
      List.Forall₂ Node.Recopied items items' →
        ((ofItems id known top items').components.map fun c =>
            (c.compile (ofItems id known top items').duration).windows.map
              Window.gate)
          = ((ofItems id known top items).components.map fun c =>
            (c.compile (ofItems id known top items).duration).windows.map
              Window.gate)
        ∧ (ofItems id known top items').program.graph?
          = (ofItems id known top items).program.graph? := by
  refine ⟨Binary64.exists_reread, fun _ _ => Binary64.exists_copied,
    fun windows vs h duration => ?_, fun id known top items items' h => ?_⟩
  · have htimes := Binary64.map_thousandths_copied h
    rw [Window.map_gate_resolve duration htimes, Window.resolve_ends]
  · have hcomponents := components_retimed id known top h
    have hduration := duration_ofItems id known top items' items
    unfold program
    rw [hduration]
    refine ⟨?_, Program.graph?_compile_of_retimed _ hcomponents⟩
    rw [← List.forall₂_eq_eq_eq, List.forall₂_map_left_iff,
      List.forall₂_map_right_iff]
    exact hcomponents.flip.imp fun _ _ hce => (hce.compile _).1

/-- A box that is shown at some times. -/
def flashing (times : List Value) : Value :=
  .object
    [("type", .string "rectangle"), ("width", .ofNat 4),
      ("height", .ofNat 3), ("data", .object [("timestamps", .array times)])]

/-- A sixteenth of a second is shown as 62 thousandths, which is another
number, also for JSON; but a box that is shown from there on is drawn the
same way. -/
theorem shown_again_sixteenth :
    (1 / 16 : Binary64).thousandths = "0.062"
      ∧ (∃ y, Binary64.numeral? "0.062".toList = some y
        ∧ y ≠ 1 / 16 ∧ y.thousandths = "0.062"
        ∧ ∃ k, Json.read "0.062" = .ok (.number k)
          ∧ Loose.number? (some (.number k)) = some y)
      ∧ (Window.resolve 9 (Loose.numbers
          (some (.array [.string "0.062", .ofNat 5])))).map Window.gate
        = ["between(t,0.062,5)"]
      ∧ (ofItems "job" none (fun _ => none)
          [flashing [.string "0.062", .ofNat 5]]).program.graph?
        = (ofItems "job" none (fun _ => none)
          [flashing [.number (.real (1 / 16)), .ofNat 5]]).program.graph? := by
  have htext : (1 / 16 : Binary64).thousandths = "0.062" := by decide +kernel
  have hcopied : (1 / 16 : Binary64).Copied (.string "0.062") :=
    htext ▸ .text
  have hfive : (5 : Binary64).Copied (.ofNat 5) := by
    have hshown : (5 : Binary64).thousandths = "5" := by decide +kernel
    have hread : Json.read "5" = .ok (.ofNat 5) := by cbv
    have hnearest : Binary64.numeral? (5 : Binary64).thousandths.toList
        = some (Json.Number.toBinary64 (.integer 5)) := by
      decide +kernel
    rw [← hshown] at hread
    exact .number hread hnearest
  have hmoved : Binary64.numeral? "0.062".toList ≠ some (1 / 16) := by
    decide +kernel
  have hreal : Loose.number? (some (.number (.real (1 / 16))))
      = some (1 / 16) := by
    decide +kernel
  have hgate : (⟨1 / 16, 5⟩ : Window).gate = "between(t,0.062,5)" := by
    decide +kernel
  refine ⟨htext, ?_, ?_, ?_⟩
  · obtain ⟨y, -, hsame, hread, hcopies⟩ := shown_again.1 (1 / 16)
    obtain ⟨k, hnumber, hk⟩ := shown_again.2.1 (1 / 16) 62
      (htext.trans (by decide +kernel)) (.inl (by decide))
    rw [htext] at hsame hread hnumber
    refine ⟨y, hread, fun hy => hmoved ?_, hsame, k, hnumber, hcopies _ hk⟩
    rw [hread, hy]
  · rw [shown_again.2.2.1 [⟨1 / 16, 5⟩] _ (.cons hcopied (.cons hfive .nil))]
    exact congrArg (fun g => [g]) hgate
  · refine (shown_again.2.2.2 "job" none (fun _ => none) _ _
      (.cons (@Node.Recopied.times [_, _, _] [] [] [] _ _ ?_) .nil)).2
    exact .cons (.inr ⟨1 / 16, hreal, hcopied⟩) (.cons (.inl rfl) .nil)

/-- More thousandths than a double can count: what is shown of the time is
no double once the point is taken out, so JSON rounds it before it divides,
and what is read is shown as a thousandth less. -/
theorem bare_copy_shown_otherwise :
    ∃ (x : Binary64) (k : Json.Number),
      x.thousandths = "9100000000000.021"
        ∧ Loose.number? (some (.string x.thousandths)) = some x
        ∧ Json.read x.thousandths = .ok (.number k)
        ∧ (Loose.number? (some (.number k))).map Binary64.thousandths
          = some "9100000000000.02"
        ∧ (ofItems "job" none (fun _ => none)
            [flashing [.ofNat 0, .number k]]).program.graph?
          ≠ (ofItems "job" none (fun _ => none)
            [flashing [.ofNat 0, .string x.thousandths]]).program.graph? := by
  let x : Binary64 := 4659200000000011 / 512
  let y : Binary64 := 4659200000000010 / 512
  have hx : x.thousandths = "9100000000000.021" := by decide +kernel
  have hread : Json.read "9100000000000.021" = .ok (.number (.real y)) := by
    let n : Numeral :=
      ⟨false, ⟨"9100000000000".toList, by decide, by decide +kernel⟩,
        some ⟨"021".toList, by decide, by decide +kernel⟩, none,
        by decide +kernel⟩
    have hnumber : n.literal.number? = some (.real y) := by decide +kernel
    show Json.read (String.ofList n.chars) = _
    rw [Json.read_numeral, hnumber]
    rfl
  refine ⟨x, .real y, hx, ?_, hx ▸ hread, ?_, ?_⟩
  · rw [hx]
    decide +kernel
  · decide +kernel
  · rw [hx]
    decide +kernel

end Job

end TimedOverlay
