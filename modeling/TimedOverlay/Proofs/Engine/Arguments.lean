/-
The character NUL in the arguments of an engine.

No argument of a program can hold a NUL, so a single one keeps the engine
from being started. Numbers, colors and gates are written without it, and
escaping neither adds nor removes one; but a text is handed on with every
character it has, and JSON can spell them all. A document keeps the
engine from being started exactly if it has a text with a NUL that is
shown at some time (`Document.arguments_hasNul_iff`).

`hasNul` is followed from the inside out: through the options of a
drawing, the text of an instruction, the graph, the arguments.
-/
import Mathlib
import TimedOverlay.Engine.Run
import TimedOverlay.Proofs.FilterGraph.Values
import TimedOverlay.Proofs.Job.Acceptance
import TimedOverlay.Proofs.Job.Components
import TimedOverlay.Proofs.Program.Composition
import TimedOverlay.Proofs.Program.Drawings
import TimedOverlay.Proofs.Program.Inert

namespace TimedOverlay

-- ================================================================= texts

theorem hasNul_eq_false_iff {s : String} :
    hasNul s = false ↔ ∀ c ∈ s.toList, c.toNat ≠ 0 := by
  unfold hasNul
  simp

@[simp] theorem hasNul_append (s t : String) :
    hasNul (s ++ t) = (hasNul s || hasNul t) := by
  unfold hasNul
  rw [String.toList_append, List.any_append]

@[simp] theorem hasNul_ofList (cs : List Char) :
    hasNul (String.ofList cs) = cs.any (·.toNat = 0) := by
  unfold hasNul
  rw [String.toList_ofList]

/-- Texts that are joined without a NUL have those they had. -/
theorem hasNul_intercalate {separator : String}
    (h : hasNul separator = false) (ss : List String) :
    hasNul (String.intercalate separator ss) = ss.any hasNul := by
  induction ss with
  | nil => simp [hasNul]
  | cons s rest ih =>
      cases rest with
      | nil => simp
      | cons t rest =>
          rw [String.intercalate_cons_cons, hasNul_append, hasNul_append, h,
            ih, Bool.or_false]
          rfl

/-- Escaping adds backslashes and nothing else. -/
theorem any_nul_escape (special s : List Char) :
    (Escape.escape special s).any (·.toNat = 0)
      = s.any (·.toNat = 0) := by
  induction s with
  | nil => rfl
  | cons c rest ih =>
      unfold Escape.escape
      by_cases hc : c ∈ special
      · rw [if_pos hc, List.any_cons, List.any_cons, List.any_cons, ih]
        simp
      · rw [if_neg hc, List.any_cons, List.any_cons, ih]

@[simp] theorem any_nul_text (s : List Char) :
    (Escape.text s).any (·.toNat = 0) = s.any (·.toNat = 0) := by
  rw [Escape.text, any_nul_escape, any_nul_escape, any_nul_escape]

-- ================================================================ values

theorem toNat_ne_zero_of_isDigit {c : Char} (h : c.isDigit = true) :
    c.toNat ≠ 0 := by
  intro hc
  have hnul : c = '\x00' := Char.toNat_inj.1 hc
  rw [hnul] at h
  exact absurd h (by decide)

@[simp] theorem hasNul_int (n : Int) : hasNul n.repr = false := by
  rw [hasNul_eq_false_iff]
  intro c hc
  rcases FilterGraph.mem_toString_int hc with rfl | hdigit
  · decide
  · exact toNat_ne_zero_of_isDigit hdigit

@[simp] theorem hasNul_thousandths (x : Binary64) :
    hasNul x.thousandths = false := by
  rw [hasNul_eq_false_iff]
  intro c hc
  have hnumeric := FilterGraph.isNumeric_of_mem_thousandths hc
  simp only [FilterGraph.isNumeric, Bool.or_eq_true, decide_eq_true_eq]
    at hnumeric
  rcases hnumeric with (rfl | rfl) | hdigit
  · decide
  · decide
  · exact toNat_ne_zero_of_isDigit hdigit

@[simp] theorem hasNul_literal (c : Color) : hasNul c.literal = false := by
  have hdigit : ∀ k < 16, (Text.hexDigit k).toNat ≠ 0 := by decide
  rw [hasNul_eq_false_iff]
  intro d hd
  rcases Color.mem_literal hd with rfl | ⟨k, hk, rfl⟩
  · decide
  · exact hdigit k hk

@[simp] theorem hasNul_expression (a : Anchor) :
    hasNul a.expression = false := by
  have hhalf : hasNul "-text_w/2" = false := by rfl
  have hfull : hasNul "-text_w" = false := by rfl
  cases a with
  | left x => exact hasNul_int x
  | center x => simp [Anchor.expression, hhalf]
  | right x => simp [Anchor.expression, hfull]

@[simp] theorem hasNul_blended (c : Color) (opacity : Binary64) :
    hasNul (Drawing.blended c opacity) = false := by
  have hsign : hasNul "@" = false := by rfl
  simp [Drawing.blended, hsign]

@[simp] theorem hasNul_gate (w : Window) : hasNul w.gate = false := by
  have hopen : hasNul "between(t," = false := by rfl
  have hcomma : hasNul "," = false := by rfl
  have hclose : hasNul ")" = false := by rfl
  simp [Window.gate, hopen, hcomma, hclose]

-- ========================================================== instructions

/-- Whether a drawing shows a text with a NUL. -/
def Drawing.showsNul : Drawing → Bool
  | .text s .. => hasNul s
  | _ => false

/-- The options of a drawing have the NULs of its text. -/
theorem Drawing.any_hasNul_options (d : Drawing) :
    (d.options.any fun o => hasNul (o.1 ++ "=" ++ o.2)) = d.showsNul := by
  have hsign : hasNul "=" = false := by rfl
  cases d with
  | box r color style =>
      have hnames : ∀ n ∈ ["x", "y", "w", "h", "color", "t", "fill"],
          hasNul n = false := by decide
      cases style with
      | fill opacity => simp [options, showsNul, hsign, hnames]
      | outline n => simp [options, showsNul, hsign, hnames]
  | text s anchor y fontSize color opacity =>
      have hnames : ∀ n ∈ ["text", "x", "y", "fontsize", "fontcolor"],
          hasNul n = false := by decide
      have hcolor : hasNul (if opacity.lt 1 then
          blended color opacity.orZero else color.literal) = false := by
        split
        next => exact hasNul_blended _ _
        next => exact hasNul_literal _
      simp only [options, showsNul, List.any_cons, List.any_nil,
        hasNul_append, hasNul_ofList, any_nul_text]
      simp [hsign, hnames, hcolor]
      rfl
  | line x₁ y₁ x₂ y₂ color n =>
      have hnames : ∀ n ∈ ["x1", "y1", "x2", "y2", "color", "t"],
          hasNul n = false := by decide
      simp [options, showsNul, hsign, hnames]

/-- An instruction has the NULs of the text that it draws. -/
theorem Instruction.hasNul_text (i : Instruction) :
    hasNul i.text = i.drawing.showsNul := by
  have hsign : hasNul "=" = false := by rfl
  have hname : hasNul i.drawing.filterName = false := by
    have hnames : ∀ n ∈ ["drawbox", "drawtext", "drawline"],
        hasNul n = false := by decide
    apply hnames
    cases i.drawing <;> simp [Drawing.filterName]
  have hgate : hasNul ("enable" ++ "=" ++ ("'" ++ i.window.gate ++ "'"))
      = false := by
    have henable : hasNul ("enable" ++ "=") = false := by rfl
    have hquote : hasNul "'" = false := by rfl
    rw [hasNul_append, henable]
    simp [hquote]
  have hoptions : (i.options.any fun o => hasNul (o.1 ++ "=" ++ o.2))
      = i.drawing.showsNul := by
    unfold options
    rw [List.any_append, Drawing.any_hasNul_options, List.any_cons, hgate,
      List.any_nil, Bool.or_false, Bool.or_false]
  unfold text
  rw [hasNul_append, hasNul_append, hname, hsign,
    hasNul_intercalate (by rfl), List.any_map, Bool.false_or, Bool.false_or]
  exact hoptions

-- ============================================================= arguments

namespace EngineOptions

/-- None of the names that an engine is called with has a NUL. -/
def Startable (o : EngineOptions) : Prop :=
  hasNul o.engine = false ∧ hasNul o.codec = false
    ∧ hasNul o.preset = false

instance (o : EngineOptions) : Decidable o.Startable :=
  inferInstanceAs (Decidable (_ ∧ _ ∧ _))

variable {o : EngineOptions} {source output : SystemString}

/-- Where nothing else has a NUL, the arguments have those of the texts
that are drawn. -/
theorem any_hasNul_arguments (ho : o.Startable)
    (hsource : hasNul source.shown = false)
    (houtput : hasNul output.shown = false) (p : Program) :
    (o.arguments source p output).any hasNul
      = p.instructions.any (·.drawing.showsNul) := by
  obtain ⟨_, hcodec, hpreset⟩ := ho
  have hfactor : hasNul (toString o.rateFactor.toNat) = false := by
    rw [hasNul_eq_false_iff]
    intro c hc
    rw [Nat.toString_eq_repr, Nat.toList_repr] at hc
    exact toNat_ne_zero_of_isDigit
      (Nat.isDigit_of_mem_toDigits (by decide) (by decide) hc)
  have hforce : (if o.overwrite then ["-y"] else []).any hasNul = false := by
    cases o.overwrite with
    | false => rfl
    | true => rfl
  have hstream : (o.streamArguments p).any hasNul
      = p.instructions.any (·.drawing.showsNul) := by
    have hwords : ∀ w ∈ ["-filter_complex", "-c:v", "-preset", "-crf",
        "-c:a", "copy"], hasNul w = false := by decide
    unfold streamArguments Program.graph?
    cases hp : p.instructions with
    | nil => rfl
    | cons i is =>
        have hgraph : hasNul (String.intercalate ","
            ((i :: is).map Instruction.text))
            = (i :: is).any (·.drawing.showsNul) := by
          rw [hasNul_intercalate (by rfl), List.any_map]
          congr 1
          funext j
          exact j.hasNul_text
        simp only [List.any_cons, List.any_nil]
        rw [hgraph, hcodec, hpreset, hfactor]
        simp [hwords]
  have hwords : ∀ w ∈ ["-hide_banner", "-loglevel", "error", "-nostdin",
      "-i"], hasNul w = false := by decide
  unfold arguments
  simp only [List.any_append, List.any_cons, List.any_nil]
  rw [hforce, hstream, hsource, houtput]
  simp [hwords]

end EngineOptions

-- ============================================================ components

/-- A shape is made of boxes, which show no text. -/
theorem ShapeStyle.showsNul_eq_false (s : ShapeStyle) {r : Rect}
    {d : Drawing} (hd : d ∈ s.drawings r) : d.showsNul = false := by
  obtain ⟨-, hd | hd | hd⟩ := s.mem_drawings.1 hd
  · obtain ⟨_, -, _, -, rfl⟩ := s.mem_shadowDrawings.1 hd
    rfl
  · obtain ⟨_, -, rfl⟩ := s.mem_fillDrawings.1 hd
    rfl
  · obtain ⟨-, rfl⟩ := s.mem_borderDrawings.1 hd
    rfl

/-- A segment shows no text either. -/
theorem Segment.showsNul_eq_false (s : Segment) {d : Drawing}
    (hd : d ∈ s.drawings) : d.showsNul = false := by
  rcases s.mem_drawings.1 hd with ⟨_, -, rfl⟩ | ⟨-, rfl⟩
  · rfl
  · rfl

/-- A text block draws copies of its text, itself among them. -/
theorem TextBlock.any_showsNul_drawings (b : TextBlock) (position : Point)
    (size : Size) (r : Rect) :
    (b.drawings position size r).any (·.showsNul) = hasNul b.text := by
  rw [Bool.eq_iff_iff, List.any_eq_true]
  constructor
  · rintro ⟨d, hd, hnul⟩
    rcases b.mem_drawings.1 hd with ⟨background, -, hd⟩ | hd | rfl
    · rw [background.showsNul_eq_false hd] at hnul
      cases hnul
    · obtain ⟨_, -, _, -, rfl⟩ := b.mem_shadowDrawings.1 hd
      exact hnul
    · exact hnul
  · intro hnul
    exact ⟨_, b.mem_drawings.2 (.inr (.inr rfl)), hnul⟩

/-- Whether a content has a text with a NUL. -/
def Content.showsNul : Content → Bool
  | .text block => hasNul block.text
  | _ => false

theorem Content.showsNul_scale (c : Content) (sx sy : Binary64) :
    (c.scale sx sy).showsNul = c.showsNul := by
  cases c with
  | rectangle style => rfl
  | circle style => rfl
  | text block => rfl
  | picture picture => rfl
  | line segment => rfl

namespace Component

/-- A text with a NUL that is shown at some time. -/
def ShowsNul (c : Component) : Prop :=
  c.visible = true ∧ c.timestamps ≠ [] ∧ c.content.showsNul = true

variable (c : Component)

theorem any_showsNul_drawings :
    c.drawings.any (·.showsNul) = c.content.showsNul := by
  unfold drawings
  cases c.content with
  | rectangle style =>
      exact List.any_eq_false.2 fun d hd => by
        simp [style.showsNul_eq_false hd]
  | circle style =>
      exact List.any_eq_false.2 fun d hd => by
        simp [style.showsNul_eq_false hd]
  | text block => exact block.any_showsNul_drawings _ _ _
  | picture picture => rfl
  | line segment =>
      exact List.any_eq_false.2 fun d hd => by
        simp [segment.showsNul_eq_false hd]

/-- The instructions of a component have a NUL if it shows one, however
long the video lasts. -/
theorem any_showsNul_compile (duration : Binary64) :
    ((c.compile duration).instructions.any (·.drawing.showsNul)) = true
      ↔ c.ShowsNul := by
  rw [List.any_eq_true]
  show (∃ i ∈ c.synthesize (Window.resolve duration c.timestamps), _) ↔ _
  unfold ShowsNul
  rw [← any_showsNul_drawings, List.any_eq_true, ne_eq,
    ← Window.resolve_eq_nil_iff duration]
  constructor
  · rintro ⟨i, hi, hnul⟩
    obtain ⟨hvisible, hdrawing, hwindow⟩ := c.mem_synthesize.1 hi
    exact ⟨hvisible, List.ne_nil_of_mem hwindow, i.drawing, hdrawing, hnul⟩
  · rintro ⟨hvisible, hshown, d, hd, hnul⟩
    obtain ⟨w, hw⟩ := List.exists_mem_of_ne_nil _ hshown
    exact ⟨⟨d, w⟩, c.mem_synthesize.2 ⟨hvisible, hd, hw⟩, hnul⟩

end Component

-- ============================================================= documents

/-- A node of a text with a NUL, that is not hidden and has a time to be
shown at. -/
def Node.ShowsNul (n : Node) : Prop :=
  n.kind = some .text ∧ n.data.visible ≠ some false
    ∧ n.data.timestamps ≠ [] ∧ n.data.text.any hasNul = true

instance (n : Node) : Decidable n.ShowsNul :=
  inferInstanceAs (Decidable (_ ∧ _ ∧ _ ∧ _))

/-- Only a text that was written down can have a NUL: the standard one
has none. -/
theorem Node.exists_showsNul (n : Node) :
    (∃ c, n.component? = some c ∧ c.ShowsNul) ↔ n.ShowsNul := by
  have hvisible : n.data.visible.getD true = true
      ↔ n.data.visible ≠ some false := by
    cases n.data.visible with
    | none => simp
    | some b => cases b <;> simp
  have htext : hasNul (n.data.text.getD TextBlock.standard.text)
      = n.data.text.any hasNul := by
    cases n.data.text with
    | none => rfl
    | some s => rfl
  constructor
  · rintro ⟨c, hc, hshown, htimes, hnul⟩
    obtain ⟨kind, hkind, hcontent, hseen, hsaid⟩ := Node.of_component? hc
    rw [hseen] at hshown
    rw [hsaid] at htimes
    rw [hcontent] at hnul
    cases kind with
    | text =>
        exact ⟨hkind, hvisible.1 hshown, htimes, htext.symm.trans hnul⟩
    | rectangle => cases hnul
    | circle => cases hnul
    | picture => cases hnul
    | line => cases hnul
  · rintro ⟨hkind, hshown, htimes, hnul⟩
    obtain ⟨c, hc, hcontent, hseen, hsaid⟩ := Node.component?_of_kind hkind
    refine ⟨c, hc, ?_, ?_, ?_⟩
    · rw [hseen]
      exact hvisible.2 hshown
    · rw [hsaid]
      exact htimes
    · rw [hcontent]
      exact htext.trans hnul

namespace Document

variable (d : Document) (duration : Binary64)

/-- The program of a document has the NULs of its nodes. -/
theorem any_showsNul_compile :
    ((Program.compile duration d.components).instructions.any
        (·.drawing.showsNul)) = true
      ↔ ∃ n ∈ d.nodes, n.ShowsNul := by
  have hscale (c : Component) (sx sy : Binary64) :
      (c.scale sx sy).ShowsNul ↔ c.ShowsNul := by
    unfold Component.ShowsNul
    rw [Component.visible_scale, Component.timestamps_scale,
      Component.content_scale, Content.showsNul_scale]
  rw [Program.instructions_compile, List.any_flatMap, List.any_eq_true]
  simp only [Component.any_showsNul_compile]
  rw [d.exists_mem_components hscale]
  simp only [Node.exists_showsNul]

/-- Where the paths, as they are shown, and the settings have no NUL, an
argument has one exactly if the document has a text with a NUL that is
shown at some time. Such a document keeps the engine from being started on
every machine, and no other does: then it is for the machine to start
it. -/
theorem arguments_hasNul_iff {o : EngineOptions}
    {source output : SystemString} (ho : o.Startable)
    (hsource : hasNul source.shown = false)
    (houtput : hasNul output.shown = false) :
    ((∃ a ∈ o.arguments source (Program.compile duration d.components)
          output, hasNul a = true)
        ↔ ∃ n ∈ d.nodes, n.ShowsNul)
      ∧ ((∃ n ∈ d.nodes, n.ShowsNul) → ∀ (h : Host) (fs : FileSystem),
        h.start o.engine ((o.arguments source
            (Program.compile duration d.components) output).map .text) fs
          = .error .nulInArgument)
      ∧ ((¬ ∃ n ∈ d.nodes, n.ShowsNul) → ∀ (h : Host) (fs : FileSystem),
        h.start o.engine ((o.arguments source
            (Program.compile duration d.components) output).map .text) fs
          = h.course o.engine ((o.arguments source
            (Program.compile duration d.components) output).map .text)
            fs) := by
  have harguments := EngineOptions.any_hasNul_arguments ho hsource houtput
    (Program.compile duration d.components)
  have hnul := d.any_showsNul_compile duration
  rw [← harguments] at hnul
  refine ⟨by rw [← List.any_eq_true, hnul], ?_, ?_⟩
  · intro hshown h fs
    unfold Host.start
    rw [List.any_cons, SystemString.any_hasNul_text, hnul.2 hshown, Bool.or_true]
    rfl
  · intro hnone h fs
    have hclean := Bool.eq_false_iff.2 (mt hnul.1 hnone)
    unfold Host.start
    rw [List.any_cons, SystemString.any_hasNul_text, SystemString.hasNul_text, ho.1,
      hclean]
    rfl

/-- What a document says of one text block, in which a NUL stands between
two letters. -/
def nulBetween (timestamps : List Json.Value) :
    List (String × Json.Value) :=
  [("nodes", .array [.object [("type", .string "text"),
    ("data", .object [("text", .string "a\x00b"),
      ("timestamps", .array timestamps)])]])]

/-- The document with that text block. -/
def withNul (timestamps : List Json.Value) : Document :=
  ofFields fun name => Json.Value.last? name (nulBetween timestamps)

/-- A NUL does no harm as long as nothing says when to show the text. -/
theorem arguments_hasNul_unshown :
    (¬ ∃ a ∈ (EngineOptions.ofSettings .standard).arguments "v.mp4"
        (Program.compile 8 (withNul []).components) "w.mp4",
      hasNul a = true)
      ∧ ∀ (h : Host) (fs : FileSystem),
        h.start "ffmpeg" (((EngineOptions.ofSettings .standard).arguments
            "v.mp4" (Program.compile 8 (withNul []).components)
            "w.mp4").map .text) fs
          = h.course "ffmpeg" (((EngineOptions.ofSettings
              .standard).arguments "v.mp4"
            (Program.compile 8 (withNul []).components) "w.mp4").map .text)
            fs := by
  have ho : (EngineOptions.ofSettings .standard).Startable := by decide
  have hsource : hasNul (SystemString.text "v.mp4").shown = false := by rfl
  have houtput : hasNul (SystemString.text "w.mp4").shown = false := by rfl
  have hnone : ¬ ∃ n ∈ (withNul []).nodes, n.ShowsNul := by
    decide +kernel
  obtain ⟨hiff, -, hstarts⟩ :=
    (withNul []).arguments_hasNul_iff 8 ho hsource houtput
  exact ⟨mt hiff.1 hnone, hstarts hnone⟩

/-- A job whose text has a NUL, spelled as JSON spells it, is accepted,
and no machine can start the engine for it. -/
theorem accepted_unstartable :
    ∃ d,
      ofText
          ("\x7b\"nodes\":[\x7b\"type\":\"text\",\"data\":\x7b"
            ++ "\"text\":\"a\\u0000b\",\"timestamps\":[0,5]\x7d\x7d]\x7d")
        = .ok d
      ∧ (EngineOptions.ofSettings .standard).Startable
      ∧ hasNul "v.mp4" = false ∧ hasNul "o.mp4" = false
      ∧ (∃ a ∈ (EngineOptions.ofSettings .standard).arguments "v.mp4"
          (Program.compile d.duration d.components) "o.mp4",
        hasNul a = true)
      ∧ ∀ (h : Host) (fs : FileSystem),
        h.start "ffmpeg" (((EngineOptions.ofSettings .standard).arguments
            "v.mp4" (Program.compile d.duration d.components)
            "o.mp4").map .text) fs
          = .error .nulInArgument := by
  have hread : Json.read
      ("\x7b\"nodes\":[\x7b\"type\":\"text\",\"data\":\x7b"
        ++ "\"text\":\"a\\u0000b\",\"timestamps\":[0,5]\x7d\x7d]\x7d")
      = .ok (.object (nulBetween [.ofNat 0, .ofNat 5])) := by
    cbv
  have ho : (EngineOptions.ofSettings .standard).Startable := by decide
  have hsource : hasNul "v.mp4" = false := by rfl
  have houtput : hasNul "o.mp4" = false := by rfl
  let d := withNul [.ofNat 0, .ofNat 5]
  have hshown : ∃ n ∈ d.nodes, n.ShowsNul := by
    decide +kernel
  have harguments : ((EngineOptions.ofSettings .standard).arguments "v.mp4"
      (Program.compile d.duration d.components) "o.mp4").any hasNul
      = (Program.compile d.duration d.components).instructions.any
        (·.drawing.showsNul) :=
    EngineOptions.any_hasNul_arguments ho (by rfl) (by rfl) _
  rw [(d.any_showsNul_compile d.duration).2 hshown] at harguments
  refine ⟨d, ofText_of_read hread, ho, hsource, houtput,
    List.any_eq_true.1 harguments, ?_⟩
  intro h fs
  unfold Host.start
  rw [List.any_cons, SystemString.any_hasNul_text, harguments, Bool.or_true]
  rfl

end Document

end TimedOverlay
