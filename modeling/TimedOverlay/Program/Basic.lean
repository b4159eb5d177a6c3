/-
Programs: all that is drawn over one video.

The instructions of the components follow each other in order, so later
components are drawn over earlier ones. Where there is nothing to draw
the program is to pass the streams through, and never an empty list of
filters.
-/
import TimedOverlay.Program.Synthesis
import TimedOverlay.Instruction.Filter

namespace TimedOverlay

/-- What is to be done with a video: pass it through, or draw the given
instructions one after the other, of which there is at least one. An empty
list of them is no program here; no compilation makes one, but a caller
that builds programs by hand could ask for it. -/
inductive Program where
  | passthrough
  | filters (first : Instruction) (rest : List Instruction)
deriving DecidableEq

namespace Program

/-- The program that draws some instructions. -/
def ofInstructions : List Instruction → Program
  | [] => .passthrough
  | i :: is => .filters i is

/-- The instructions in the order in which they are drawn. -/
def instructions : Program → List Instruction
  | .passthrough => []
  | .filters i is => i :: is

/-- A program draws the instructions it was made of. -/
@[simp] theorem instructions_ofInstructions (is : List Instruction) :
    (ofInstructions is).instructions = is := by
  cases is <;> rfl

/-- A program is made of the instructions it draws. -/
@[simp] theorem ofInstructions_instructions (p : Program) :
    ofInstructions p.instructions = p := by
  cases p <;> rfl

/-- The program of several groups of instructions. -/
def assemble (groups : List (List Instruction)) : Program :=
  ofInstructions groups.flatten

/-- Whether there is nothing to draw. -/
def isPassthrough (p : Program) : Bool := p.instructions.isEmpty

/-- The filter graph of a program that has one. -/
def graph? (p : Program) : Option String :=
  match p.instructions with
  | [] => none
  | is => some (String.intercalate "," (is.map Instruction.text))

end Program

-- =========================================================== compilation

/-- A component with its windows and its instructions. -/
structure Compiled where
  id : String
  kind : Kind
  windows : List Window
  instructions : List Instruction
deriving DecidableEq

/-- A component in a video that lasts `duration`. -/
def Component.compile (duration : Binary64) (c : Component) : Compiled :=
  let windows := Window.resolve duration c.timestamps
  ⟨c.id, c.content.kind, windows, c.synthesize windows⟩

/-- The program of some components in a video that lasts `duration`. -/
def Program.compile (duration : Binary64) (cs : List Component) : Program :=
  assemble (cs.map fun c => (c.compile duration).instructions)

end TimedOverlay
