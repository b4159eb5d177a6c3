/-
Escaping a text for a filter graph.

Three readers see the text in turn: the graph, which cuts it into
filters; the options of a filter, cut at colons; and the expansion of
the text itself, where a percent sign has a meaning. Each of them takes
a backslash off the character behind it. So each level has its own set
of special characters, and the text is escaped for the innermost reader
first.
-/
namespace TimedOverlay.Escape

/-- The characters that mean something to the expansion of a text. -/
def expansionSpecial : List Char := ['\\', '%']

/-- The characters that mean something among the options of a filter. -/
def optionSpecial : List Char := ['\\', '\'', ':']

/-- The characters that mean something in a graph. -/
def graphSpecial : List Char := ['\\', '\'', '[', ']', ',', ';']

/-- A text with a backslash in front of every special character. -/
def escape (special : List Char) : List Char → List Char
  | [] => []
  | c :: rest =>
    if c ∈ special then '\\' :: c :: escape special rest
    else c :: escape special rest

/-- A text with one level of backslashes taken off; none if a backslash
is left without a character. -/
def unescape? : List Char → Option (List Char)
  | [] => some []
  | ['\\'] => none
  | '\\' :: c :: rest => (c :: ·) <$> unescape? rest
  | c :: rest => (c :: ·) <$> unescape? rest

/-- A text escaped for all three readers. -/
def text (s : List Char) : List Char :=
  escape graphSpecial (escape optionSpecial (escape expansionSpecial s))

/-- Taking the backslashes off gives the text back. -/
theorem unescape?_escape {special : List Char} (h : '\\' ∈ special)
    (s : List Char) : unescape? (escape special s) = some s := by
  induction s with
  | nil => rfl
  | cons c rest ih =>
    by_cases hc : c ∈ special
    · simp [escape, hc, unescape?, ih]
    · have hb : c ≠ '\\' := fun e => hc (e ▸ h)
      have : unescape? (c :: escape special rest)
          = (c :: ·) <$> unescape? (escape special rest) := by
        rw [unescape?]
        · intro e; exact absurd e hb
        · intro c' r e; exact absurd e hb
      simp [escape, hc, this, ih]

end TimedOverlay.Escape
