/-
Strings of the system: paths, and the words of a command line.

The system knows bytes only. Where they spell a text the string is that
text; where they do not, the string is the bytes as they are. So a string
that is no text can be handed from one part of the system to another
unharmed, it can be shown with U+FFFD for what is ill-formed, but it
cannot be written down where only text can be.

Strings are cut at characters of ASCII, whose bytes are never part of
another character. For that a string is taken as its `units`: the
characters of a text, the single bytes of anything else.
-/
import TimedOverlay.Storage.Fault
import TimedOverlay.Text.Utf8

namespace TimedOverlay

/-- A string of the system: a text, or bytes that spell none. -/
inductive SystemString where
  | text (s : String)
  | bytes (bs : List UInt8) (ill : Utf8.text? bs = none)
deriving DecidableEq

namespace SystemString

instance : Coe String SystemString := ⟨text⟩

/-- The string of some bytes. -/
def ofBytes (bs : List UInt8) : SystemString :=
  match h : Utf8.text? bs with
  | some s => .text s
  | none => .bytes bs h

variable (s : SystemString)

/-- The text of a string that is one. -/
def text? : Option String :=
  match s with
  | .text t => some t
  | .bytes .. => none

/-- The string is a text. -/
def IsText : Prop := s.text?.isSome

instance : Decidable s.IsText := inferInstanceAs (Decidable (_ = true))

/-- A string as it is shown. -/
def shown : String :=
  match s with
  | .text t => t
  | .bytes bs _ => Utf8.lossy bs

/-- The number of bytes of a string. -/
def size : Nat :=
  match s with
  | .text t => t.utf8ByteSize
  | .bytes bs _ => bs.length

/-- The units that a string is cut between. -/
def units : List Char :=
  match s with
  | .text t => t.toList
  | .bytes bs _ => bs.map fun b => Char.ofNat b.toNat

/-- The string of some units of `s`. -/
def part (us : List Char) : SystemString :=
  match s with
  | .text _ => .text (String.ofList us)
  | .bytes .. => .ofBytes (us.map fun c => .ofNat c.toNat)

/-- Whether there is nothing in a string. -/
def isEmpty : Bool := s.units.isEmpty

/-- Whether a string holds the character that no path or argument
can. -/
def hasNul : Bool := s.units.any (·.toNat = 0)

/-- A text has the NULs of its characters. -/
@[simp] theorem hasNul_text (t : String) :
    (text t).hasNul = TimedOverlay.hasNul t := rfl

theorem any_hasNul_text (ts : List String) :
    (ts.map text).any (·.hasNul) = ts.any TimedOverlay.hasNul := by
  rw [List.any_map]
  rfl

end SystemString

end TimedOverlay
