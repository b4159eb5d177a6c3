/-
What a job comes to, as lines of text.
-/
import TimedOverlay.Engine.Command
import TimedOverlay.Job.Prepared
import TimedOverlay.Decimal.Places

namespace TimedOverlay.Console

/-- The frame and the duration of a job. -/
def frameLine (j : Job) : String :=
  "  Frame: " ++ toString j.frame.width ++ "x" ++ toString j.frame.height
    ++ ", duration " ++ j.duration.fixed 2 ++ "s"

/-- A component with its windows. -/
def componentLine (c : Compiled) : String :=
  let windows :=
    if c.windows.isEmpty then "none"
    else String.intercalate " " (c.windows.map Window.gate)
  "  " ++ c.id ++ " [" ++ c.kind.name ++ "] windows: " ++ windows ++ " -> "
    ++ toString c.instructions.length ++ " instruction(s)"

/-- A number in a column that is three digits wide. -/
def column (n : Nat) : String :=
  let digits := Nat.toDigits 10 n
  String.ofList (List.replicate (3 - digits.length) ' ' ++ digits)

/-- Instructions with their numbers, the first one being `n`. -/
def instructionLines (n : Nat) : List Instruction → List String
  | [] => []
  | i :: is =>
    ("  " ++ column n ++ ". " ++ i.text) :: instructionLines (n + 1) is

/-- A program, instruction by instruction. -/
def programLines (p : Program) : List String :=
  if p.isPassthrough then
    ["Program: pass-through (streams copied unmodified)"]
  else
    ("Program (" ++ toString p.instructions.length ++ " instructions):")
      :: instructionLines 1 p.instructions

/-- What a job in a file comes to, and the command that would draw it. -/
def listing (path : SystemString) (j : Job) (engine : String)
    (arguments : List String) : List String :=
  ["Job: " ++ j.id ++ " (" ++ path.shown ++ ")", frameLine j, "",
      "Components:"]
    ++ j.components.map (fun c => componentLine (c.compile j.duration))
    ++ [""] ++ programLines (Program.compile j.duration j.components)
    ++ ["", "Command:",
      "  " ++ engine ++ " " ++ String.intercalate " " arguments]

end TimedOverlay.Console
