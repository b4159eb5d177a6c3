/-
What a command line asks for.

Words are read from left to right. A word that begins with a dash names
one option, or with a single dash several of one letter each; an option
that takes a value has it behind an equals sign, or in the same word
behind its letter, or as the next word. Two dashes alone end the options.
Paths may be any strings of the system, all else has to be text.
The first thing that is wrong decides, and so does the first wish for
help or for the version.

The options about settings may stand before the command and behind it;
what stands behind it counts.
-/
import TimedOverlay.Decimal.Basic
import TimedOverlay.Storage.SystemString

namespace TimedOverlay.Console

-- ============================================================== requests

/-- The commands with their arguments. -/
inductive Command where
  | render (job video : SystemString) (output : Option SystemString)
      (timeout : Option UInt64) (probe : Bool)
      (report : Option SystemString)
  | plan (job : SystemString) (video output : Option SystemString)
  | check
deriving DecidableEq

/-- A command and what holds for all commands. -/
structure Request where
  config : Option SystemString
  verbose : Bool
  command : Command
deriving DecidableEq

/-- Why a command line is no request. -/
inductive Stop where
  | help
  | version
  | misuse
deriving DecidableEq

-- =============================================================== options

/-- The options, whatever command they belong to. -/
inductive Key where
  | verbose
  | config
  | video
  | output
  | timeout
  | probe
  | report
  | help
  | version
deriving DecidableEq

namespace Key

/-- The name of an option, behind two dashes. -/
def name : Key → String
  | .verbose => "verbose"
  | .config => "config"
  | .video => "video"
  | .output => "output"
  | .timeout => "timeout"
  | .probe => "probe"
  | .report => "report"
  | .help => "help"
  | .version => "version"

/-- The letter of an option that has one, behind a single dash. -/
def letter? : Key → Option Char
  | .verbose => some 'v'
  | .output => some 'o'
  | .help => some 'h'
  | .version => some 'V'
  | _ => none

/-- Whether an option has a value. -/
def takesValue : Key → Bool
  | .verbose | .probe | .help | .version => false
  | _ => true

end Key

/-- A number of seconds: digits, with a plus sign in front or none. -/
def seconds? (s : String) : Option UInt64 :=
  let digits := match s.toList with
    | '+' :: rest => rest
    | cs => cs
  let n := Decimal.digitsValue digits
  if digits ≠ [] ∧ digits.all Char.isDigit ∧ n < 2 ^ 64 then
    some (.ofNat n)
  else none

/-- Whether an option can have a value. Paths are not empty. -/
def Key.admits (k : Key) (value : SystemString) : Bool :=
  match k with
  | .timeout => (value.text?.bind seconds?).isSome
  | _ => !k.takesValue || !value.isEmpty

/-- The options that have been found, with their values. -/
abbrev Found := List (Key × SystemString)

namespace Found

variable (f : Found)

/-- The value of an option that has been found. -/
def value? (k : Key) : Option SystemString := f.lookup k

/-- Whether an option has been found. -/
def has (k : Key) : Bool := (f.lookup k).isSome

/-- One more option. None may be repeated. -/
def accept (k : Key) (value : SystemString) : Except Stop Found :=
  if k = .help then .error .help
  else if k = .version then .error .version
  else if f.has k ∨ !k.admits value then .error .misuse
  else .ok ((k, value) :: f)

/-- A word of letters, one option each. The last of them may take what
is left of the word for its value; if nothing is left, it waits for
one. -/
def acceptLetters (keys : List Key) (word : SystemString) (f : Found) :
    List Char → Except Stop (Found × Option Key)
  | [] => .ok (f, none)
  | c :: rest =>
    match keys.find? (·.letter? = some c) with
    | none => .error .misuse
    | some k =>
      if k.takesValue then
        match rest with
        | [] => .ok (f, some k)
        | '=' :: value => (·, none) <$> f.accept k (word.part value)
        | value => (·, none) <$> f.accept k (word.part value)
      else match f.accept k "" with
        | .error stop => .error stop
        | .ok f => acceptLetters keys word f rest

/-- An option by its name; `rest` is what the word holds behind the
dashes. -/
def acceptName (keys : List Key) (word : SystemString) (f : Found)
    (rest : List Char) : Except Stop (Found × Option Key) :=
  let name := String.ofList (rest.takeWhile (· ≠ '='))
  match keys.find? (·.name = name), rest.dropWhile (· ≠ '=') with
  | none, _ => .error .misuse
  | some k, [] =>
    if k.takesValue then .ok (f, some k) else (·, none) <$> f.accept k ""
  | some k, _ :: value =>
    if k.takesValue then (·, none) <$> f.accept k (word.part value)
    else .error .misuse

end Found

-- ================================================================= words

/-- What is found among words: options, and the words that are none. -/
structure Words where
  found : Found
  operands : List SystemString

/-- The words behind a command, at most `room` of them operands. `waiting`
is an option whose value is the next word. -/
def readWords (keys : List Key) (room : Nat) (found : Found)
    (waiting : Option Key) : List SystemString → Except Stop Words
  | [] => if waiting.isSome then .error .misuse else .ok ⟨found, []⟩
  | word :: rest =>
    match word.units, waiting with
    | '-' :: _ :: _, some _ => .error .misuse
    | _, some k => do
      readWords keys room (← found.accept k word) none rest
    | ['-', '-'], none =>
      if room < rest.length ∨ rest.any (·.isEmpty) then .error .misuse
      else .ok ⟨found, rest⟩
    | '-' :: '-' :: name, none => do
      let (found, waiting) ← found.acceptName keys word name
      readWords keys room found waiting rest
    | '-' :: c :: letters, none => do
      let (found, waiting) ← found.acceptLetters keys word (c :: letters)
      readWords keys room found waiting rest
    | _, none => do
      if room = 0 ∨ word.isEmpty then throw .misuse
      let words ← readWords keys (room - 1) found none rest
      return { words with operands := word :: words.operands }

/-- The words up to a command: the options, the command, and what is
behind it. -/
def readCommand (keys : List Key) (found : Found) (waiting : Option Key) :
    List SystemString →
      Except Stop (Found × SystemString × List SystemString)
  | [] => .error .misuse
  | word :: rest =>
    match word.units, waiting with
    | '-' :: _ :: _, some _ => .error .misuse
    | _, some k => do
      readCommand keys (← found.accept k word) none rest
    | ['-', '-'], none => .error .misuse
    | '-' :: '-' :: name, none => do
      let (found, waiting) ← found.acceptName keys word name
      readCommand keys found waiting rest
    | '-' :: c :: letters, none => do
      let (found, waiting) ← found.acceptLetters keys word (c :: letters)
      readCommand keys found waiting rest
    | _, none => .ok (found, word, rest)

-- ============================================================== commands

/-- The options of every command. -/
def commonKeys : List Key := [.verbose, .config, .help]

/-- The options of a command, by its name, and how many operands it
has. -/
def formOf? : String → Option (List Key × Nat)
  | "render" =>
    some (commonKeys ++ [.video, .output, .timeout, .probe, .report], 1)
  | "plan" => some (commonKeys ++ [.video, .output], 1)
  | "check" => some (commonKeys, 0)
  | _ => none

/-- The command of a name with its words. -/
def Command.ofWords (name : String) (w : Words) : Except Stop Command :=
  let value? := w.found.value?
  match name, w.operands with
  | "render", [job] =>
    match value? .video with
    | some video =>
      .ok (.render job video (value? .output)
        ((value? .timeout).bind fun n => n.text?.bind seconds?)
        (w.found.has .probe) (value? .report))
    | none => .error .misuse
  | "plan", [job] => .ok (.plan job (value? .video) (value? .output))
  | "check", [] => .ok .check
  | _, _ => .error .misuse

/-- The words behind a wish for help: nothing, or the one command that it
is about. -/
def isHelpTopic : List SystemString → Bool
  | [] => true
  | [.text topic] => topic = "help" || (formOf? topic).isSome
  | _ => false

/-- The request of a command line. -/
def Request.ofArguments (arguments : List SystemString) :
    Except Stop Request := do
  let (outer, command, rest) ←
    readCommand (commonKeys ++ [.version]) [] none arguments
  let name ← match command with
    | .text name => pure name
    | .bytes .. => throw .misuse
  if name = "help" then
    throw (if isHelpTopic rest then .help else .misuse)
  match formOf? name with
  | none => throw .misuse
  | some (keys, room) =>
    let words ← readWords keys room [] none rest
    return {
      config := (words.found.value? .config).or (outer.value? .config)
      verbose := words.found.has .verbose || outer.has .verbose
      command := ← Command.ofWords name words }

end TimedOverlay.Console
