/-
A program is put together from the nodes of its document, one by one.

Everything that a document says beside its nodes (the frame, the canvas,
the duration) decides how each node is placed and when it is shown, and
no node has a say in how another is drawn. So the program of a list of
nodes is that of its first part followed by that of the rest
(`Job.program_append`), also where one of them draws nothing and there is
no graph to join. Later nodes are drawn over earlier ones, and an item
that gives no component can stand anywhere.
-/
import TimedOverlay.Proofs.Job.Scaling
import TimedOverlay.Program.Basic

namespace TimedOverlay

open Json (Value)

-- ============================================================== programs

namespace Program

/-- A program draws what its components draw, one after the other. -/
theorem instructions_compile (duration : Binary64) (cs : List Component) :
    (compile duration cs).instructions
      = cs.flatMap fun c => (c.compile duration).instructions := by
  unfold compile assemble
  rw [instructions_ofInstructions, List.flatMap_def]

theorem instructions_compile_append (duration : Binary64)
    (cs ds : List Component) :
    (compile duration (cs ++ ds)).instructions
      = (compile duration cs).instructions
        ++ (compile duration ds).instructions := by
  rw [instructions_compile, instructions_compile, instructions_compile,
    List.flatMap_append]

/-- Two graphs as one, where there are two. -/
def joinGraphs : Option String → Option String → Option String
  | none, h => h
  | some g, none => some g
  | some g, some h => some (g ++ "," ++ h)

/-- A program that draws what two others draw has both their graphs. -/
theorem graph?_of_append {p q r : Program}
    (h : p.instructions = q.instructions ++ r.instructions) :
    p.graph? = joinGraphs q.graph? r.graph? := by
  unfold graph?
  rw [h]
  cases q.instructions with
  | nil => rfl
  | cons i is =>
      cases r.instructions with
      | nil => rw [List.append_nil]; rfl
      | cons j js =>
          have hjoin : String.intercalate ","
              ((i :: is ++ j :: js).map Instruction.text)
              = String.intercalate "," ((i :: is).map Instruction.text)
                ++ ","
                ++ String.intercalate ","
                  ((j :: js).map Instruction.text) := by
            rw [List.map_append]
            exact String.intercalate_append_of_ne_nil (by simp) (by simp)
          show some (String.intercalate ","
            ((i :: is ++ j :: js).map Instruction.text)) = _
          rw [hjoin]
          rfl

theorem eq_passthrough_iff {p : Program} :
    p = .passthrough ↔ p.instructions = [] := by
  cases p with
  | passthrough => simp [instructions]
  | filters i is => simp [instructions]

end Program

-- ============================================================= documents

namespace Document

/-- Fields of a document, with these items for its nodes. -/
def withNodes (top : String → Option Value) (items : List Value)
    (name : String) : Option Value :=
  if name = "nodes" then some (.array items) else top name

variable (top : String → Option Value) (items : List Value)

/-- The factors have nothing to do with the nodes. -/
theorem canvasScale_withNodes :
    (ofFields (withNodes top items)).canvasScale
      = (ofFields (withNodes top [])).canvasScale := by
  simp [canvasScale, frame, ofFields, withNodes]

theorem duration_withNodes :
    (ofFields (withNodes top items)).duration
      = (ofFields (withNodes top [])).duration := by
  simp [duration, ofFields, withNodes]

/-- The components are those of the items that are nodes, all placed by
the same factors. -/
theorem components_withNodes :
    (ofFields (withNodes top items)).components
      = placed (ofFields (withNodes top [])).canvasScale
          (items.filterMap Node.ofValue?) := by
  rw [components_eq, canvasScale_withNodes]
  rfl

theorem placed_append (scale : Binary64 × Binary64) (ns ms : List Node) :
    placed scale (ns ++ ms) = placed scale ns ++ placed scale ms := by
  unfold placed
  rw [List.filterMap_append, List.map_append]

end Document

/-- An item that gives no component: it is no node, or one of no known
kind. -/
def Node.Idle (item : Value) : Prop :=
  ∀ n, ofValue? item = some n → n.kind = none

/-- Idle items are not placed. -/
theorem Document.placed_of_idle (scale : Binary64 × Binary64) {item : Value}
    (h : Node.Idle item) :
    placed scale ([item].filterMap Node.ofValue?) = [] := by
  cases hn : Node.ofValue? item with
  | none => simp [hn, placed]
  | some n => simp [hn, placed, Node.component?, h n hn]

-- ================================================================== jobs

namespace Job

/-- The program of a job. -/
def program (j : Job) : Program := Program.compile j.duration j.components

/-- The job of a document with these items for its nodes, for a video of
which something may be known. -/
def ofItems (id : String) (known : Option Media)
    (top : String → Option Value) (items : List Value) : Job :=
  ofDocument id (.ofFields (Document.withNodes top items)) known

variable (id : String) (known : Option Media)
  (top : String → Option Value) (A B : List Value)

theorem components_append :
    (ofItems id known top (A ++ B)).components
      = (ofItems id known top A).components
        ++ (ofItems id known top B).components := by
  show (Document.ofFields _).components
    = (Document.ofFields _).components ++ (Document.ofFields _).components
  rw [Document.components_withNodes, Document.components_withNodes,
    Document.components_withNodes, List.filterMap_append,
    Document.placed_append]

/-- How long a job lasts has nothing to do with its nodes. -/
theorem duration_ofItems :
    (ofItems id known top A).duration
      = (ofItems id known top B).duration := by
  have hsame := (Document.duration_withNodes top A).trans
    (Document.duration_withNodes top B).symm
  unfold ofItems ofDocument
  simp only [hsame]

theorem instructions_append :
    (ofItems id known top (A ++ B)).program.instructions
      = (ofItems id known top A).program.instructions
        ++ (ofItems id known top B).program.instructions := by
  unfold program
  rw [components_append, Program.instructions_compile_append,
    duration_ofItems id known top (A ++ B) A,
    duration_ofItems id known top B A]

/-- Each item draws what it would draw alone, in the order of the
items. -/
theorem instructions_eq_flatMap :
    (ofItems id known top A).program.instructions
      = A.flatMap fun item =>
          (ofItems id known top [item]).program.instructions := by
  induction A with
  | nil => rfl
  | cons item rest ih =>
      rw [List.flatMap_cons, ← ih, ← instructions_append,
        List.singleton_append]

/-- An idle item makes no difference, wherever it stands. -/
theorem components_insert {item : Value} (h : Node.Idle item) :
    (ofItems id known top (A ++ item :: B)).components
      = (ofItems id known top (A ++ B)).components := by
  have hnone : (ofItems id known top [item]).components = [] := by
    show (Document.ofFields _).components = []
    rw [Document.components_withNodes, Document.placed_of_idle _ h]
  rw [← List.singleton_append, components_append, components_append, hnone,
    List.nil_append, ← components_append]

/-- The program of nodes that follow each other is the programs of both
parts, one after the other: their components and their instructions are
appended, their graphs are joined by a comma, and nothing is drawn if
neither part draws anything. So later items draw after earlier ones, each
as if it were alone; and one that is no node, or a node of no known kind,
changes nothing, wherever it stands. -/
theorem program_append :
    (ofItems id known top (A ++ B)).components
        = (ofItems id known top A).components
          ++ (ofItems id known top B).components
      ∧ (ofItems id known top (A ++ B)).program.instructions
        = (ofItems id known top A).program.instructions
          ++ (ofItems id known top B).program.instructions
      ∧ (ofItems id known top (A ++ B)).program.graph?
        = Program.joinGraphs (ofItems id known top A).program.graph?
            (ofItems id known top B).program.graph?
      ∧ ((ofItems id known top (A ++ B)).program = .passthrough
        ↔ (ofItems id known top A).program = .passthrough
          ∧ (ofItems id known top B).program = .passthrough)
      ∧ (ofItems id known top A).program.instructions
        = A.flatMap (fun item =>
            (ofItems id known top [item]).program.instructions)
      ∧ ∀ item, Node.Idle item →
          (ofItems id known top (A ++ item :: B)).components
              = (ofItems id known top (A ++ B)).components
            ∧ (ofItems id known top (A ++ item :: B)).program
              = (ofItems id known top (A ++ B)).program := by
  have hinstructions := instructions_append id known top A B
  refine ⟨components_append id known top A B, hinstructions,
    Program.graph?_of_append hinstructions, ?_,
    instructions_eq_flatMap id known top A, ?_⟩
  · rw [Program.eq_passthrough_iff, hinstructions, List.append_eq_nil_iff,
      Program.eq_passthrough_iff, Program.eq_passthrough_iff]
  · intro item hidle
    have hsame := components_insert id known top A B hidle
    refine ⟨hsame, ?_⟩
    unfold program
    rw [hsame, duration_ofItems id known top (A ++ item :: B) (A ++ B)]

/-- A node of a kind that nobody knows. -/
def hexagon : Value := .object [("type", .string "hexagon")]

/-- A hexagon between two lines leaves both where they are. -/
theorem program_append_hexagon :
    Node.Idle hexagon
      ∧ (ofItems "job" none (fun _ => none)
          ([.object [("type", .string "line")]]
            ++ hexagon :: [.object [("type", .string "Line")]])).components
        = [.ofContent "" (.line .standard),
            .ofContent "" (.line .standard)] := by
  have hidle : Node.Idle hexagon := by
    intro n hn
    obtain rfl := Option.some.inj hn
    decide
  refine ⟨hidle, ?_⟩
  have hsame := ((program_append "job" none (fun _ => none)
    [.object [("type", .string "line")]]
    [.object [("type", .string "Line")]]).2.2.2.2.2 hexagon hidle).1
  rw [hsame]
  decide +kernel

end Job

end TimedOverlay
