/-
Reading a graph undoes writing it.

Every option of an instruction is read as its setting (`Agrees`), so the
options of a filter between their colons are read as its settings
(`option?_parts`), so the text of an instruction is read as its filter
(`Instruction.read?_text`), and a graph between its commas as the
filters of its instructions (`graph_decodes`). Each step is one law of
rows: what is complete, and hides the separator, is cut off whole.
-/
import TimedOverlay.Program.Basic
import TimedOverlay.Proofs.FilterGraph.Values

namespace TimedOverlay

namespace FilterGraph

-- =============================================================== options

/-- The name of an option or a filter: quiet, and without the sign that
ends it. -/
def isName (s : String) : Bool :=
  s.toList.all fun c => isQuiet c && c ≠ '='

/-- An option as it is written. -/
def written (o : String × String) : List Char :=
  o.1.toList ++ '=' :: o.2.toList

/-- An option and the setting that it is read as. -/
structure Agrees (o s : String × String) : Prop where
  name : o.1 = s.1
  named : isName o.1 = true
  reads : Reads o.1 o.2 s.2

theorem quiet_of_isName {s : String} (h : isName s = true) : Quiet s := by
  refine quiet_iff.2 fun c hc => ?_
  have hall := List.all_eq_true.1 h c hc
  rw [Bool.and_eq_true] at hall
  exact hall.1

theorem bare_eq_notMem {s : String} (h : isName s = true) :
    .bare '=' ∉ s.toList.map Token.bare := by
  intro hmem
  obtain ⟨c, hc, e⟩ := List.mem_map.1 hmem
  cases e
  have hall := List.all_eq_true.1 h '=' hc
  revert hall
  decide

/-- Options agree with themselves where their names are names, none of
them that of a text, and their values are quiet. -/
theorem agrees_of_quiet {os : List (String × String)} (names : List String)
    (hos : os.map (·.1) = names)
    (hnames : names.all (fun name => isName name && name != "text") = true)
    (hvalues : ∀ v ∈ os.map (·.2), Quiet v) : List.Forall₂ Agrees os os := by
  refine List.forall₂_same.2 fun o ho => ?_
  have hmem : o.1 ∈ names := by
    rw [← hos]
    exact List.mem_map_of_mem ho
  have hname := List.all_eq_true.1 hnames o.1 hmem
  rw [Bool.and_eq_true, bne_iff_ne] at hname
  exact ⟨rfl, hname.1,
    .of_quiet hname.2 (hvalues o.2 (List.mem_map_of_mem ho))⟩

/-- A quoted gate is read as the gate. -/
theorem Agrees.of_gate (w : Window) :
    Agrees ("enable", "'" ++ w.gate ++ "'") ("enable", w.gate) := by
  have opening : ∀ c ∈ "between(t,".toList, c = ',' ∨ isQuiet c = true := by
    intro c hc
    have hall : "between(t,".toList.all
        (fun c => c = ',' || isQuiet c) = true := by decide
    simpa using List.all_eq_true.1 hall c hc
  have hquiet : ∀ c ∈ w.gate.toList, c = ',' ∨ isQuiet c = true := by
    intro c hc
    simp only [Window.gate, String.toList_append, List.mem_append] at hc
    rcases hc with (((hc | hc) | hc) | hc) | hc
    · exact opening c hc
    · exact .inr (quiet_iff.1 (quiet_thousandths _) c hc)
    · exact .inl (by simpa using hc)
    · exact .inr (quiet_iff.1 (quiet_thousandths _) c hc)
    · exact .inr (quiet_iff.1 (by decide : Quiet ")") c hc)
  have hplain : ∀ c ∈ w.gate.toList, isPlain c = true := by
    intro c hc
    rcases hquiet c hc with rfl | hq
    · rfl
    · exact isPlain_of_isQuiet hq
  -- The commas of a gate are hidden by its quotes; behind the graph only a
  -- colon could still cut it, and it has none.
  have hnone : ∀ d, d ≠ ',' → isQuiet d = false → d ∉ w.gate.toList := by
    intro d hd hq hmem
    rcases hquiet d hmem with rfl | hq'
    · exact hd rfl
    · rw [hq] at hq'
      cases hq'
  have hscan : scan? .plain ("'" ++ w.gate ++ "'").toList
      = some [.quoted w.gate.toList] := by
    rw [String.toList_append, String.toList_append]
    exact scan?_quoted (hnone '\'' (by decide) rfl)
  have hts := tokens_of_scan? hscan
  have hscan' := scan?_plain hplain
  have hmeant : meant [.quoted w.gate.toList] = w.gate.toList := by
    simp [Token.meaning]
  have hname : isName "enable" = true := by decide
  refine ⟨rfl, hname, complete_of_scan? hscan, ?_, ?_, ?_, ?_⟩
  · intro c _
    rw [hts]
    simp
  · rw [hts, hmeant]
    exact complete_of_scan? hscan'
  · rw [hts, hmeant, tokens_of_scan? hscan']
    intro hmem
    obtain ⟨c, hc, e⟩ := List.mem_map.1 hmem
    cases e
    exact hnone ':' (by decide) rfl hc
  · rw [hts, hmeant, tokens_of_scan? hscan', meant_map_bare]
    simp [value?]

theorem quiet_blended (c : Color) (x : Binary64) :
    Quiet (Drawing.blended c x) :=
  .append (.append (quiet_literal c) (by decide)) (quiet_thousandths x)

theorem quiet_expression (a : Anchor) : Quiet a.expression := by
  cases a with
  | left x => exact quiet_int x
  | center x => exact .append (quiet_int x) (by decide)
  | right x => exact .append (quiet_int x) (by decide)

theorem agrees_drawing (d : Drawing) :
    List.Forall₂ Agrees d.options d.settings := by
  cases d with
  | box r color style =>
      cases style with
      | fill opacity =>
          refine agrees_of_quiet ["x", "y", "w", "h", "color", "t"] rfl
            (by decide) ?_
          simp only [Drawing.options, List.cons_append, List.nil_append,
            List.map_cons, List.map_nil, List.forall_mem_cons]
          exact ⟨quiet_int _, quiet_int _, quiet_int _, quiet_int _,
            quiet_blended _ _, by decide, nofun⟩
      | outline n =>
          refine agrees_of_quiet ["x", "y", "w", "h", "color", "t"] rfl
            (by decide) ?_
          simp only [Drawing.options, List.cons_append, List.nil_append,
            List.map_cons, List.map_nil, List.forall_mem_cons]
          exact ⟨quiet_int _, quiet_int _, quiet_int _, quiet_int _,
            quiet_literal _, quiet_int _, nofun⟩
  | text s anchor y n color opacity =>
      have htext : isName "text" = true := by decide
      have hcolor : Quiet (if opacity.lt 1 then
          Drawing.blended color opacity.orZero else color.literal) := by
        split
        · exact quiet_blended _ _
        · exact quiet_literal _
      refine .cons ⟨rfl, htext, .of_text s⟩
        (agrees_of_quiet ["x", "y", "fontsize", "fontcolor"] rfl
          (by decide) ?_)
      simp only [List.map_cons, List.map_nil, List.forall_mem_cons]
      exact ⟨quiet_expression _, quiet_int _, quiet_int _, hcolor, nofun⟩
  | line x₁ y₁ x₂ y₂ color n =>
      refine agrees_of_quiet ["x1", "y1", "x2", "y2", "color", "t"] rfl
        (by decide) ?_
      simp only [Drawing.options, List.map_cons, List.map_nil,
        List.forall_mem_cons]
      exact ⟨quiet_int _, quiet_int _, quiet_int _, quiet_int _,
        quiet_literal _, quiet_int _, nofun⟩

/-- Every option of an instruction agrees with its setting. -/
theorem agrees_instruction (i : Instruction) :
    List.Forall₂ Agrees i.options i.settings :=
  List.rel_append (agrees_drawing i.drawing) (.cons (.of_gate i.window) .nil)

-- ================================================================== rows

/-- An option without the escapes and quotes of the graph. -/
def argument (o : String × String) : List Char :=
  o.1.toList ++ '=' :: meant (tokens o.2.toList)

/-- A name, its sign and a complete text are read one after the
other. -/
theorem scan?_named {name : String} (hname : isName name = true)
    {s : List Char} (hs : Complete s) :
    scan? .plain (name.toList ++ '=' :: s)
      = some (name.toList.map .bare ++ .bare '=' :: tokens s) := by
  have hsign : scan? .plain ('=' :: s) = some (.bare '=' :: tokens s) :=
    scan?_append_some (s := ['=']) rfl hs.scan?
  exact scan?_append_some (quiet_of_isName hname).scan? hsign

/-- A character that is neither the separator nor in a text of a row is
not in the row. -/
theorem notMem_intercalate {α : Type} {x separator : α} {ls : List (List α)}
    (hne : x ≠ separator) (h : ∀ l ∈ ls, x ∉ l) :
    x ∉ [separator].intercalate ls := by
  induction ls with
  | nil => simp
  | cons l ls ih =>
      obtain ⟨hl, htail⟩ := List.forall_mem_cons.1 h
      cases ls with
      | nil => simpa using hl
      | cons l' ls =>
          rw [List.intercalate_cons_cons]
          simp only [List.mem_append, List.mem_singleton, not_or]
          exact ⟨⟨hl, hne⟩, ih htail⟩

theorem meant_intercalate (separator : Char) (tss : List (List Token)) :
    meant ([Token.bare separator].intercalate tss)
      = [separator].intercalate (tss.map meant) := by
  induction tss with
  | nil => rfl
  | cons ts tss ih =>
      cases tss with
      | nil => simp
      | cons ts' tss =>
          rw [List.intercalate_cons_cons, List.map_cons, List.map_cons,
            List.intercalate_cons_cons, meant_append, meant_append, ih]
          rfl

namespace Agrees

variable {o s : String × String}

theorem scan?_written (h : Agrees o s) :
    scan? .plain (written o)
      = some (o.1.toList.map .bare ++ .bare '=' :: tokens o.2.toList) :=
  scan?_named h.named h.reads.complete

theorem unmarked (h : Agrees o s) {c : Char} (hc : c ∈ graphMarks) :
    .bare c ∉ tokens (written o) := by
  have hquiet : isQuiet c = false := by
    revert c hc
    simp [graphMarks, isQuiet]
  have hsign : Token.bare c ≠ .bare '=' := by
    rintro e
    cases e
    revert hc
    decide
  rw [tokens_of_scan? h.scan?_written, List.mem_append, List.mem_cons]
  rintro (hn | hn | hn)
  · exact (quiet_of_isName h.named).bare_notMem hquiet hn
  · exact hsign hn
  · exact h.reads.unmarked c hc hn

theorem meant_written (h : Agrees o s) :
    meant (tokens (written o)) = argument o := by
  rw [tokens_of_scan? h.scan?_written, meant_append, meant_map_bare,
    meant_cons]
  rfl

theorem scan?_argument (h : Agrees o s) :
    scan? .plain (argument o)
      = some (o.1.toList.map .bare ++ .bare '='
          :: tokens (meant (tokens o.2.toList))) :=
  scan?_named h.named h.reads.completeInside

theorem uncut (h : Agrees o s) : .bare ':' ∉ tokens (argument o) := by
  rw [tokens_of_scan? h.scan?_argument, List.mem_append, List.mem_cons]
  rintro (hn | hn | hn)
  · exact (quiet_of_isName h.named).bare_notMem rfl hn
  · cases hn
  · exact h.reads.uncut hn

/-- An option is read as its setting. -/
theorem option?_argument (h : Agrees o s) :
    option? (tokens (argument o)) = some s := by
  obtain ⟨name, value⟩ := o
  obtain ⟨name', meaning⟩ := s
  have hname : name = name' := h.name
  subst hname
  unfold option?
  rw [tokens_of_scan? h.scan?_argument, cut_append (bare_eq_notMem h.named)]
  simp only [meant_map_bare, String.ofList_toList]
  rw [h.reads.read]
  rfl

end Agrees

section Row

variable {os ss : List (String × String)} (h : List.Forall₂ Agrees os ss)

include h

theorem exists_agrees {o : String × String} (ho : o ∈ os) :
    ∃ s, Agrees o s := by
  induction h with
  | nil => cases ho
  | cons hhead _ ih =>
      rcases List.mem_cons.1 ho with rfl | ho
      · exact ⟨_, hhead⟩
      · exact ih ho

theorem scan?_row :
    scan? .plain ([':'].intercalate (os.map written))
      = some ([Token.bare ':'].intercalate
          (os.map fun o => tokens (written o))) := by
  rw [scan?_intercalate rfl, List.map_map]
  · rfl
  · intro w hw
    obtain ⟨o, ho, rfl⟩ := List.mem_map.1 hw
    obtain ⟨s, hs⟩ := exists_agrees h ho
    exact complete_of_scan? hs.scan?_written

theorem parts?_row (hne : os ≠ []) :
    parts? ':' (meant (tokens ([':'].intercalate (os.map written))))
      = some (os.map fun o => tokens (argument o)) := by
  have hmeant : (os.map fun o => meant (tokens (written o)))
      = os.map argument :=
    List.map_congr_left fun o ho => by
      obtain ⟨s, hs⟩ := exists_agrees h ho
      exact hs.meant_written
  rw [tokens_of_scan? (scan?_row h), meant_intercalate, List.map_map]
  show parts? ':' ([':'].intercalate
    (os.map fun o => meant (tokens (written o)))) = _
  rw [hmeant, parts?_intercalate rfl (by simpa using hne), List.map_map]
  · rfl
  · intro w hw
    obtain ⟨o, ho, rfl⟩ := List.mem_map.1 hw
    obtain ⟨s, hs⟩ := exists_agrees h ho
    exact complete_of_scan? hs.scan?_argument
  · intro w hw
    obtain ⟨o, ho, rfl⟩ := List.mem_map.1 hw
    obtain ⟨s, hs⟩ := exists_agrees h ho
    exact hs.uncut

/-- The options of a row are read as its settings. -/
theorem option?_parts :
    (os.map fun o => tokens (argument o)).mapM option? = some ss := by
  induction h with
  | nil => rfl
  | cons hhead _ ih =>
      rw [List.map_cons, List.mapM_cons, hhead.option?_argument, ih]
      rfl

end Row

end FilterGraph

-- ========================================================== instructions

namespace Instruction

open FilterGraph

variable (i : Instruction)

theorem toList_text :
    i.text.toList = i.drawing.filterName.toList
      ++ '=' :: [':'].intercalate (i.options.map written) := by
  unfold text
  rw [String.toList_append, String.toList_append, String.toList_intercalate,
    List.map_map, List.append_assoc]
  refine congrArg (i.drawing.filterName.toList ++ '=' :: [':'].intercalate ·)
    (List.map_congr_left fun o _ => ?_)
  simp [written]

theorem isName_filterName : isName i.drawing.filterName = true := by
  cases i.drawing with
  | box => exact (by decide : isName "drawbox" = true)
  | text => exact (by decide : isName "drawtext" = true)
  | line => exact (by decide : isName "drawline" = true)

theorem options_ne_nil : i.options ≠ [] :=
  List.append_ne_nil_of_right_ne_nil _ (List.cons_ne_nil _ _)

theorem scan?_text :
    scan? .plain i.text.toList
      = some (i.drawing.filterName.toList.map .bare ++ .bare '='
          :: tokens ([':'].intercalate (i.options.map written))) := by
  rw [toList_text]
  exact scan?_named i.isName_filterName
    (complete_of_scan? (scan?_row (agrees_instruction i)))

theorem unmarked {c : Char} (hc : c ∈ graphMarks) :
    .bare c ∉ tokens i.text.toList := by
  have hquiet : isQuiet c = false := by
    revert c hc
    simp [graphMarks, isQuiet]
  have hother : c ≠ '=' ∧ c ≠ ':' := by
    revert c hc
    simp [graphMarks]
  rw [tokens_of_scan? i.scan?_text,
    tokens_of_scan? (scan?_row (agrees_instruction i)), List.mem_append,
    List.mem_cons]
  rintro (hn | hn | hn)
  · exact (quiet_of_isName i.isName_filterName).bare_notMem hquiet hn
  · cases hn
    exact hother.1 rfl
  · refine notMem_intercalate ?_ ?_ hn
    · rintro e
      cases e
      exact hother.2 rfl
    · intro ts hts
      obtain ⟨o, ho, rfl⟩ := List.mem_map.1 hts
      obtain ⟨s, hs⟩ := exists_agrees (agrees_instruction i) ho
      exact hs.unmarked hc

/-- The text of an instruction is read as its filter. -/
theorem read?_text :
    Filter.read? (tokens i.text.toList) = some i.filter := by
  unfold Filter.read?
  rw [tokens_of_scan? i.scan?_text,
    cut_append (bare_eq_notMem i.isName_filterName)]
  simp only [meant_map_bare, String.ofList_toList]
  rw [parts?_row (agrees_instruction i) i.options_ne_nil]
  simp only [Option.bind_eq_bind, Option.bind_some]
  rw [option?_parts (agrees_instruction i)]
  rfl

end Instruction

end TimedOverlay
