/-
The three levels of an escaped text.

A text goes through three readers, and at each of them the same is true
(`Level`): every character that means something to the reader stands
behind a backslash that is not itself escaped, no backslash is left open
at the end, and taking one level of backslashes off gives what the next
reader sees. The last of them sees the text itself (`text_levels`).

Whether a backslash is escaped is a matter of parity: in a run of
backslashes every second one is (`Open`). That is decided by what stands
before a character alone, so what follows an escaped text is read as if
it stood there by itself (`Level.apart`).
-/
import Mathlib.Data.List.Induction
import TimedOverlay.Proofs.FilterGraph.Filter

namespace TimedOverlay.FilterGraph

open Escape (escape unescape? expansionSpecial optionSpecial graphSpecial)

-- ================================================================ parity

/-- The number of backslashes that end a text. -/
def trailing (s : List Char) : Nat :=
  (s.reverse.takeWhile (· = '\\')).length

/-- A text that ends in a backslash that is not itself escaped. The
character behind it is a literal one. -/
def Open (s : List Char) : Prop := trailing s % 2 = 1

instance (s : List Char) : Decidable (Open s) :=
  inferInstanceAs (Decidable (_ = 1))

/-- Every one of the given characters stands behind a backslash that is
not itself escaped. -/
def Guarded (marks s : List Char) : Prop :=
  ∀ before c after, s = before ++ c :: after → c ∈ marks → Open before

theorem not_open_nil : ¬ Open [] := by decide

/-- A backslash opens a text that was not open, and every other character
leaves it closed. -/
theorem open_concat {s : List Char} {c : Char} :
    Open (s ++ [c]) ↔ c = '\\' ∧ ¬ Open s := by
  unfold Open trailing
  rw [List.reverse_append, List.reverse_singleton, List.singleton_append,
    List.takeWhile_cons]
  by_cases hc : c = '\\'
  · rw [if_pos (by simpa using hc), List.length_cons]
    simp only [hc, true_and]
    omega
  · rw [if_neg (by simpa using hc)]
    simp [hc]

variable {special marks : List Char}

theorem escape_concat (s : List Char) (c : Char) :
    escape special (s ++ [c])
      = escape special s ++ if c ∈ special then ['\\', c] else [c] := by
  induction s with
  | nil =>
      by_cases hc : c ∈ special
      · simp [escape, hc]
      · simp [escape, hc]
  | cons d rest ih =>
      by_cases hd : d ∈ special
      · simp [escape, hd, ih]
      · simp [escape, hd, ih]

/-- No backslash is left open at the end of an escaped text. -/
theorem not_open_escape (hb : '\\' ∈ special) (s : List Char) :
    ¬ Open (escape special s) := by
  induction s using List.reverseRecOn with
  | nil => exact not_open_nil
  | append_singleton s c ih =>
      rw [escape_concat]
      split
      next =>
        -- The backslash in front opens the text, so `c` is a literal.
        rw [← List.singleton_append, ← List.append_assoc]
        intro hopen
        exact (open_concat.1 hopen).2 (open_concat.2 ⟨rfl, ih⟩)
      next hc =>
        intro hopen
        exact hc ((open_concat.1 hopen).1 ▸ hb)

/-- What is guarded stays guarded before a character that is not marked
or stands behind an open backslash. -/
theorem Guarded.concat {s : List Char} {c : Char} (h : Guarded marks s)
    (hc : c ∈ marks → Open s) : Guarded marks (s ++ [c]) := by
  intro before d after heq hd
  rcases after.eq_nil_or_concat with rfl | ⟨rest, e, rfl⟩
  · obtain ⟨rfl, rfl⟩ := List.concat_inj.1 (by simpa using heq)
    exact hc hd
  · rw [List.concat_eq_append, ← List.cons_append, ← List.append_assoc] at heq
    obtain ⟨heq, -⟩ := List.append_inj' heq rfl
    exact h before d rest heq hd

/-- In an escaped text every special character but the backslash is
guarded. -/
theorem guarded_escape (hb : '\\' ∈ special)
    (hmarks : ∀ c ∈ marks, c ∈ special ∧ c ≠ '\\') (s : List Char) :
    Guarded marks (escape special s) := by
  have hbackslash : '\\' ∉ marks := fun h => (hmarks _ h).2 rfl
  induction s using List.reverseRecOn with
  | nil => intro before c after heq; simp [escape] at heq
  | append_singleton s c ih =>
      rw [escape_concat]
      split
      next =>
        rw [← List.singleton_append, ← List.append_assoc]
        refine (ih.concat fun h => absurd h hbackslash).concat fun _ => ?_
        exact open_concat.2 ⟨rfl, not_open_escape hb s⟩
      next hc => exact ih.concat fun h => absurd (hmarks c h).1 hc

-- =============================================================== readers

/-- The tokens of a text for a reader to which quotes mean nothing; none
if a backslash is left open. -/
def literals? : List Char → Option (List Token)
  | [] => some []
  | ['\\'] => none
  | '\\' :: c :: rest => (.escaped c :: ·) <$> literals? rest
  | c :: rest => (.bare c :: ·) <$> literals? rest

theorem literals?_cons {c : Char} (hc : c ≠ '\\') (rest : List Char) :
    literals? (c :: rest) = (.bare c :: ·) <$> literals? rest := by
  rw [literals?]
  · exact fun e => absurd e hc
  · exact fun _ _ e => absurd e hc

theorem unescape?_cons {c : Char} (hc : c ≠ '\\') (rest : List Char) :
    unescape? (c :: rest) = (c :: ·) <$> unescape? rest := by
  rw [unescape?]
  · exact fun e => absurd e hc
  · exact fun _ _ e => absurd e hc

theorem expand?_cons {c : Char} (hb : c ≠ '\\') (hp : c ≠ '%')
    (rest : List Char) : expand? (c :: rest) = (c :: ·) <$> expand? rest := by
  rw [expand?.eq_4, if_neg hp]
  · exact fun e => absurd e hb
  · exact fun _ _ e => absurd e hb

/-- Behind an escaped text a reader goes on as from the start. -/
theorem literals?_escape_append (hb : '\\' ∈ special) (s rest : List Char) :
    literals? (escape special s ++ rest)
      = (s.map (mark special) ++ ·) <$> literals? rest := by
  induction s with
  | nil => simp [escape]
  | cons c s ih =>
      by_cases hc : c ∈ special
      · simp [escape, mark, hc, literals?, ih, Function.comp_def]
      · have hne : c ≠ '\\' := fun e => hc (e ▸ hb)
        simp [escape, mark, hc, literals?_cons hne, ih, Function.comp_def]

theorem unescape?_escape_append (hb : '\\' ∈ special) (s rest : List Char) :
    unescape? (escape special s ++ rest) = (s ++ ·) <$> unescape? rest := by
  induction s with
  | nil => simp [escape]
  | cons c s ih =>
      by_cases hc : c ∈ special
      · simp [escape, hc, unescape?, ih, Function.comp_def]
      · have hne : c ≠ '\\' := fun e => hc (e ▸ hb)
        simp [escape, hc, unescape?_cons hne, ih, Function.comp_def]

theorem expand?_escape_append (s rest : List Char) :
    expand? (escape expansionSpecial s ++ rest)
      = (s ++ ·) <$> expand? rest := by
  induction s with
  | nil => simp [escape]
  | cons c s ih =>
      by_cases hc : c ∈ expansionSpecial
      · simp [escape, hc, expand?, ih, Function.comp_def]
      · have hb : c ≠ '\\' := fun e => hc (e ▸ by decide)
        have hp : c ≠ '%' := fun e => hc (e ▸ by decide)
        simp [escape, hc, expand?_cons hb hp, ih, Function.comp_def]

theorem scan?_escape_append (hb : '\\' ∈ special) (hq : '\'' ∈ special)
    (s rest : List Char) :
    scan? .plain (escape special s ++ rest)
      = (s.map (mark special) ++ ·) <$> scan? .plain rest :=
  scan?_append (scan?_escape hb hq s) rest

@[simp] theorem spelled_map_mark (s : List Char) :
    spelled (s.map (mark special)) = escape special s := by
  induction s with
  | nil => rfl
  | cons c s ih =>
      by_cases hc : c ∈ special
      · simp [escape, mark, hc, ih, Token.spelling]
      · simp [escape, mark, hc, ih, Token.spelling]

/-- Nothing in an escaped text is quoted. -/
theorem quoted_notMem_map_mark (run s : List Char) :
    .quoted run ∉ s.map (mark special) := by
  intro h
  obtain ⟨c, -, hc⟩ := List.mem_map.1 h
  unfold mark at hc
  split at hc
  next => cases hc
  next => cases hc

-- ================================================================ levels

/-- What a reader finds of a text that was escaped for it. All of its
marks are guarded and no backslash is left open, so that without one
level of backslashes the text is `inner`. The reader sees the tokens of
exactly this text, none of them a bare mark or a quoted run; then it goes
on with what follows as if nothing had been there before. -/
structure Level (scan : List Char → Option (List Token))
    (marks outer inner : List Char) : Prop where
  guarded : Guarded marks outer
  closed : ¬ Open outer
  unescaped : unescape? outer = some inner
  apart : ∀ rest, unescape? (outer ++ rest) = (inner ++ ·) <$> unescape? rest
  consumed : ∃ ts, scan outer = some ts ∧ spelled ts = outer
    ∧ meant ts = inner ∧ (∀ c ∈ marks, .bare c ∉ ts)
    ∧ (∀ run, .quoted run ∉ ts)
    ∧ ∀ rest, scan (outer ++ rest) = (ts ++ ·) <$> scan rest

/-- An escaped text is a level for every reader that sees its tokens
first, whatever follows. -/
theorem level_escape {scan : List Char → Option (List Token)}
    (hnil : scan [] = some [])
    (hscan : ∀ s rest, scan (escape special s ++ rest)
      = (s.map (mark special) ++ ·) <$> scan rest)
    (hb : '\\' ∈ special) (hmarks : ∀ c ∈ marks, c ∈ special ∧ c ≠ '\\')
    (s : List Char) : Level scan marks (escape special s) s where
  guarded := guarded_escape hb hmarks s
  closed := not_open_escape hb s
  unescaped := Escape.unescape?_escape hb s
  apart := unescape?_escape_append hb s
  consumed := by
    refine ⟨s.map (mark special), ?_, spelled_map_mark s, meant_map_mark _ s,
      fun c hc => bare_notMem_map_mark (hmarks c hc).1 s,
      fun run => quoted_notMem_map_mark run s, hscan s⟩
    have hself := hscan s []
    rw [List.append_nil, hnil] at hself
    rw [hself]
    exact congrArg some (List.append_nil _)

/-- A text written for a graph has three levels. At the first no quote,
bracket, comma or semicolon is bare, at the second no quote or colon, at
the third no percent sign; and what is left in the end is the text.
Whatever follows it, each reader is done with the text before it looks at
what follows. -/
theorem text_levels (s : List Char) :
    ∃ options expansion,
      Level (scan? .plain) ['\'', '[', ']', ',', ';'] (Escape.text s) options
      ∧ Level (scan? .plain) ['\'', ':'] options expansion
      ∧ Level literals? ['%'] expansion s
      ∧ ∀ rest, expand? (expansion ++ rest) = (s ++ ·) <$> expand? rest := by
  refine ⟨escape optionSpecial (escape expansionSpecial s),
    escape expansionSpecial s, ?_, ?_, ?_, expand?_escape_append s⟩
  · exact level_escape rfl
      (fun t rest => scan?_escape_append (by decide) (by decide) t rest)
      (by decide) (by simp [graphSpecial]) _
  · exact level_escape rfl
      (fun t rest => scan?_escape_append (by decide) (by decide) t rest)
      (by decide) (by simp [optionSpecial]) _
  · exact level_escape rfl
      (fun t rest => literals?_escape_append (by decide) t rest)
      (by decide) (by simp [expansionSpecial]) s

end TimedOverlay.FilterGraph
