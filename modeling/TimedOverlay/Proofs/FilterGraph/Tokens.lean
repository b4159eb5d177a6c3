/-
A text as a reader with backslashes and quotes sees it.

The graph and the options of a filter are read alike. A backslash makes
the character behind it literal, a run between single quotes is literal
as a whole, and every other character is bare; only bare characters cut
a text into parts. A token keeps how it is spelled, so a part of a text
can be looked at as it was written (`spelled`) and as it is meant
(`meant`), and nothing of the text is lost (`spelled_of_scan?`).

The law that carries the rest is `scan?_append`: once a text is
complete, what follows it cannot change how it was read. So a long text
is scanned part by part, and there are only three kinds of parts:
characters without any meaning (`scan?_plain`), escaped texts
(`scan?_escape`) and quoted runs (`scan?_quoted`).
-/
import TimedOverlay.Instruction.Escape

namespace TimedOverlay.FilterGraph

-- ================================================================ tokens

/-- A character that stands for itself, one behind a backslash, or a run
between quotes. -/
inductive Token where
  | bare (c : Char)
  | escaped (c : Char)
  | quoted (run : List Char)
deriving DecidableEq

namespace Token

/-- A token as it is written. -/
def spelling : Token → List Char
  | .bare c => [c]
  | .escaped c => ['\\', c]
  | .quoted run => '\'' :: run ++ ['\'']

/-- What a token stands for. -/
def meaning : Token → List Char
  | .bare c => [c]
  | .escaped c => [c]
  | .quoted run => run

end Token

/-- Tokens as they are written. -/
def spelled (ts : List Token) : List Char := ts.flatMap Token.spelling

/-- What tokens stand for: the text without its escapes and quotes. -/
def meant (ts : List Token) : List Char := ts.flatMap Token.meaning

-- =============================================================== scanner

/-- Where a scanner is: between tokens, behind a backslash, or in a
quoted run, whose characters so far it holds, the last one first. -/
inductive State where
  | plain
  | escape
  | quote (run : List Char)

/-- What a scanner has taken of the token that it is in. -/
def State.taken : State → List Char
  | .plain => []
  | .escape => ['\\']
  | .quote run => '\'' :: run.reverse

/-- The tokens of a text; none if the text ends behind a backslash or in
a quoted run. -/
def scan? : State → List Char → Option (List Token)
  | .plain, [] => some []
  | .escape, [] => none
  | .quote _, [] => none
  | .plain, c :: rest =>
    if c = '\\' then scan? .escape rest
    else if c = '\'' then scan? (.quote []) rest
    else (.bare c :: ·) <$> scan? .plain rest
  | .escape, c :: rest => (.escaped c :: ·) <$> scan? .plain rest
  | .quote run, c :: rest =>
    if c = '\'' then (.quoted run.reverse :: ·) <$> scan? .plain rest
    else scan? (.quote (c :: run)) rest

/-- The parts of a text between the bare occurrences of a separator, if
the text is complete. -/
def parts? (separator : Char) (s : List Char) : Option (List (List Token)) :=
  (scan? .plain s).map (List.splitOn (.bare separator))

-- ================================================================== laws

@[simp] theorem spelled_nil : spelled [] = [] := rfl

@[simp] theorem spelled_cons (t : Token) (ts : List Token) :
    spelled (t :: ts) = t.spelling ++ spelled ts := rfl

@[simp] theorem meant_nil : meant [] = [] := rfl

@[simp] theorem meant_cons (t : Token) (ts : List Token) :
    meant (t :: ts) = t.meaning ++ meant ts := rfl

@[simp] theorem meant_append (ts us : List Token) :
    meant (ts ++ us) = meant ts ++ meant us :=
  List.flatMap_append

@[simp] theorem meant_map_bare (s : List Char) :
    meant (s.map .bare) = s := by
  induction s with
  | nil => rfl
  | cons c rest ih => simpa [Token.meaning] using ih

/-- The tokens of a text spell it. -/
theorem spelled_of_scan? {st : State} {s : List Char} {ts : List Token}
    (h : scan? st s = some ts) : spelled ts = st.taken ++ s := by
  induction s generalizing st ts with
  | nil =>
      cases st with
      | plain => cases h; rfl
      | escape => cases h
      | quote run => cases h
  | cons c rest ih =>
      cases st with
      | plain =>
          simp only [scan?] at h
          split at h
          next hc => rw [ih h, hc]; rfl
          next =>
            split at h
            next hc => rw [ih h, hc]; rfl
            next =>
              obtain ⟨us, hus, rfl⟩ := Option.map_eq_some_iff.1 h
              rw [spelled_cons, ih hus]
              rfl
      | escape =>
          obtain ⟨us, hus, rfl⟩ := Option.map_eq_some_iff.1 h
          rw [spelled_cons, ih hus]
          rfl
      | quote run =>
          simp only [scan?] at h
          split at h
          next hc =>
            obtain ⟨us, hus, rfl⟩ := Option.map_eq_some_iff.1 h
            rw [spelled_cons, ih hus, hc]
            simp [Token.spelling, State.taken]
          next =>
            rw [ih h]
            simp [State.taken]

/-- What follows a complete text does not change how it is read. -/
theorem scan?_append {st : State} {s : List Char} {ts : List Token}
    (h : scan? st s = some ts) (t : List Char) :
    scan? st (s ++ t) = (ts ++ ·) <$> scan? .plain t := by
  -- A text is complete only if its end is reached between two tokens.
  induction s generalizing st ts with
  | nil =>
      cases st with
      | plain => cases h; simp
      | escape => cases h
      | quote run => cases h
  | cons c rest ih =>
      cases st with
      | plain =>
          simp only [scan?] at h
          simp only [List.cons_append, scan?]
          split at h
          next hc => rw [if_pos hc, ih h]
          next hc =>
            rw [if_neg hc]
            split at h
            next hq => rw [if_pos hq, ih h]
            next hq =>
              obtain ⟨us, hus, rfl⟩ := Option.map_eq_some_iff.1 h
              rw [if_neg hq, ih hus]
              simp [Function.comp_def]
      | escape =>
          obtain ⟨us, hus, rfl⟩ := Option.map_eq_some_iff.1 h
          simp only [List.cons_append, scan?]
          rw [ih hus]
          simp [Function.comp_def]
      | quote run =>
          simp only [scan?] at h
          simp only [List.cons_append, scan?]
          split at h
          next hc =>
            obtain ⟨us, hus, rfl⟩ := Option.map_eq_some_iff.1 h
            rw [if_pos hc, ih hus]
            simp [Function.comp_def]
          next hc => rw [if_neg hc, ih h]

/-- Two complete texts in a row are read one after the other. -/
theorem scan?_append_some {s t : List Char} {ts us : List Token}
    (hs : scan? .plain s = some ts) (ht : scan? .plain t = some us) :
    scan? .plain (s ++ t) = some (ts ++ us) := by
  rw [scan?_append hs, ht]
  rfl

-- ================================================================= parts

/-- Whether a character stands for itself wherever it is bare. -/
def isPlain (c : Char) : Bool := c ≠ '\\' && c ≠ '\''

theorem scan?_plain {s : List Char} (h : ∀ c ∈ s, isPlain c = true) :
    scan? .plain s = some (s.map .bare) := by
  induction s with
  | nil => rfl
  | cons c rest ih =>
      obtain ⟨hc, hrest⟩ := List.forall_mem_cons.1 h
      simp only [isPlain, Bool.and_eq_true, decide_eq_true_eq] at hc
      simp only [scan?]
      rw [if_neg hc.1, if_neg hc.2, ih hrest]
      rfl

/-- A character of an escaped text. -/
def mark (special : List Char) (c : Char) : Token :=
  if c ∈ special then .escaped c else .bare c

/-- In an escaped text exactly the special characters are escaped, as
long as the backslash and the quote are among them. -/
theorem scan?_escape {special : List Char} (hb : '\\' ∈ special)
    (hq : '\'' ∈ special) (s : List Char) :
    scan? .plain (Escape.escape special s)
      = some (s.map (mark special)) := by
  induction s with
  | nil => rfl
  | cons c rest ih =>
      by_cases hc : c ∈ special
      · simp [Escape.escape, mark, hc, scan?, ih]
      · have hcb : c ≠ '\\' := fun e => hc (e ▸ hb)
        have hcq : c ≠ '\'' := fun e => hc (e ▸ hq)
        simp [Escape.escape, mark, hc, scan?, hcb, hcq, ih]

@[simp] theorem meant_map_mark (special s : List Char) :
    meant (s.map (mark special)) = s := by
  induction s with
  | nil => rfl
  | cons c rest ih =>
      have hc : (mark special c).meaning = [c] := by
        unfold mark
        split <;> rfl
      rw [List.map_cons, meant_cons, hc, ih]
      rfl

/-- No special character of an escaped text is bare. -/
theorem bare_notMem_map_mark {special : List Char} {c : Char}
    (hc : c ∈ special) (s : List Char) :
    .bare c ∉ s.map (mark special) := by
  intro h
  obtain ⟨d, -, hd⟩ := List.mem_map.1 h
  unfold mark at hd
  split at hd
  next => cases hd
  next hn =>
    cases hd
    exact hn hc

theorem scan?_quote {run : List Char} (h : '\'' ∉ run)
    (before : List Char) :
    scan? (.quote before) (run ++ ['\''])
      = some [.quoted (before.reverse ++ run)] := by
  induction run generalizing before with
  | nil => simp [scan?]
  | cons c rest ih =>
      have hc : c ≠ '\'' := fun e => h (e ▸ List.mem_cons_self)
      have hrest : '\'' ∉ rest := fun e => h (List.mem_cons_of_mem _ e)
      simp only [List.cons_append, scan?]
      rw [if_neg hc, ih hrest]
      simp

/-- A quoted run is one token. -/
theorem scan?_quoted {run : List Char} (h : '\'' ∉ run) :
    scan? .plain ('\'' :: run ++ ['\'']) = some [.quoted run] :=
  scan?_quote h []

-- ================================================================== rows

/-- Whether a text is complete: no backslash ends it, and every quote is
closed. -/
def Complete (s : List Char) : Prop := (scan? .plain s).isSome = true

/-- The tokens of a complete text. -/
def tokens (s : List Char) : List Token := (scan? .plain s).getD []

theorem Complete.scan? {s : List Char} (h : Complete s) :
    scan? .plain s = some (tokens s) := by
  obtain ⟨ts, hts⟩ := Option.isSome_iff_exists.1 h
  rw [tokens, hts]
  rfl

theorem complete_of_scan? {s : List Char} {ts : List Token}
    (h : scan? .plain s = some ts) : Complete s := by
  rw [Complete, h]
  rfl

theorem tokens_of_scan? {s : List Char} {ts : List Token}
    (h : scan? .plain s = some ts) : tokens s = ts := by
  rw [tokens, h]
  rfl

/-- Complete texts between plain separators are read one after the
other. -/
theorem scan?_intercalate {separator : Char}
    (hsep : isPlain separator = true) {ss : List (List Char)}
    (h : ∀ s ∈ ss, Complete s) :
    scan? .plain ([separator].intercalate ss)
      = some ([Token.bare separator].intercalate (ss.map tokens)) := by
  have hone : scan? .plain [separator] = some [.bare separator] :=
    scan?_plain (s := [separator]) (by simpa using hsep)
  induction ss with
  | nil => rfl
  | cons s ss ih =>
      obtain ⟨hs, htail⟩ := List.forall_mem_cons.1 h
      cases ss with
      | nil => simpa using hs.scan?
      | cons s' ss =>
          rw [List.intercalate_cons_cons, List.map_cons, List.map_cons,
            List.intercalate_cons_cons]
          exact scan?_append_some (scan?_append_some hs.scan? hone)
            (ih htail)

/-- Such a row is cut into its texts, if the separator is bare in none
of them. -/
theorem parts?_intercalate {separator : Char}
    (hsep : isPlain separator = true) {ss : List (List Char)}
    (hne : ss ≠ []) (h : ∀ s ∈ ss, Complete s)
    (hbare : ∀ s ∈ ss, Token.bare separator ∉ tokens s) :
    parts? separator ([separator].intercalate ss) = some (ss.map tokens) := by
  unfold parts?
  rw [scan?_intercalate hsep h, Option.map_some,
    List.splitOn_intercalate _ (by simpa using hbare) (by simpa using hne)]

end TimedOverlay.FilterGraph
