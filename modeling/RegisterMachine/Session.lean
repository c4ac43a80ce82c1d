import RegisterMachine.Breakdown
import RegisterMachine.Program

/-! Sessions: a program is typed line by line and run on demand. What is typed is a line of the
program unless it starts with a colon; the answers are text, and come in the chunks that stand
between one reading and the next. -/
namespace RegisterMachine

structure Session where
  machine : Machine
  prompt : String
  buffer : Array String := #[]
  runs : Nat := 0

namespace Session

inductive Command where
  | run
  | reset
  | clear
  | list
  | registers
  | sample
  | help
  deriving DecidableEq, Repr

namespace Command

def all : List Command := [run, reset, clear, list, registers, sample, help]

def name : Command → String
  | run => ":run"
  | reset => ":reset"
  | clear => ":clear"
  | list => ":list"
  | registers => ":regs"
  | sample => ":example"
  | help => ":help"

def ofName? (s : String) : Option Command := all.find? (·.name = s)

@[simp] theorem ofName?_name (c : Command) : ofName? c.name = some c := by cases c <;> rfl

end Command

/-- What a typed line asks for. -/
inductive Entry where
  | quit
  | command (command : Command)
  | unknown (text : String)
  | code (line : String)
  deriving DecidableEq, Repr

def quitNames : List String := [":quit", ":q", ":exit"]

/-- The first word of a line that starts with a colon is its command; only quitting must stand
alone. Other lines are kept as typed, without the line end. -/
def Entry.ofLine (s : String) : Entry :=
  let text := Text.trim s
  if text ∈ quitNames then .quit
  else if text.toList.head? = some ':' then
    match (Text.words text).head?.bind Command.ofName? with
    | some c => .command c
    | none => .unknown text
  else
    let ends (c : Char) : Bool := c == '\r' || c == '\n'
    .code (String.ofList (s.toList.reverse.dropWhile ends).reverse)

def defaultPrompt : String := "regvm> "

def helpText : String := Text.unlines [
  "Interactive regvm session.",
  "",
  "Lines you type are collected into a program buffer.  Commands start with",
  "a colon:",
  "",
  "    :run      reset the VM and execute the buffer",
  "    :reset    zero registers and clear the output",
  "    :clear    empty the program buffer",
  "    :list     show the program buffer",
  "    :regs     show register values",
  "    :example  replace the buffer with the example program",
  "    :help     this text",
  "    :quit     leave (EOF works too)"]

def ofConfig (config : Config) (prompt : String := defaultPrompt) : Session :=
  { machine := .ofConfig config, prompt }

def source (s : Session) : String := Text.unlines s.buffer.toList

def numbered (number : Nat) : List String → List String
  | [] => []
  | line :: rest => (Text.alignRight 3 number.repr ++ "  " ++ line) :: numbered (number + 1) rest

def listing (s : Session) : List String :=
  if s.buffer.isEmpty then ["(empty)"] else numbered 1 s.buffer.toList

def obey (s : Session) : Command → Session × Except Breakdown (List String)
  | .run =>
    match s.machine.run s.source with
    | (m, .ok report) => ({ s with machine := m, runs := s.runs + 1 }, .ok [report.text])
    | (m, .error e) => ({ s with machine := m }, .error (.run e))
  | .reset =>
    let m := s.machine.reset
    ({ s with machine := m }, .ok [m.trace.text, m.status.text])
  | .clear => ({ s with buffer := #[] }, .ok ["Program buffer cleared."])
  | .list => (s, .ok s.listing)
  | .registers =>
    match s.machine.registers.table with
    | .ok table => (s, .ok [table])
    | .error e => (s, .error (.table e))
  | .sample =>
    let lines := Program.sampleLines
    ({ s with buffer := lines.toArray },
      .ok ["Loaded example program (" ++ lines.length.repr ++ " lines)."])
  | .help => (s, .ok [helpText])

def ended (lines : List String) : String := String.join (lines.map (· ++ "\n"))

/-- What comes of a typed line: text and the next prompt, the end, or a breakdown. -/
inductive Reply where
  | text (text : String)
  | over
  | broken (reason : Breakdown)
  deriving DecidableEq, Repr

def answer (s : Session) (line : String) : Session × Reply :=
  match Entry.ofLine line with
  | .quit => (s, .over)
  | .command c =>
    match s.obey c with
    | (s, .ok lines) => (s, .text (ended lines))
    | (s, .error reason) => (s, .broken reason)
  | .unknown text => (s, .text (ended ["Unknown command: " ++ text ++ " (try :help)"]))
  | .code line => ({ s with buffer := s.buffer.push line }, .text "")

def close (s : Session) : Session :=
  let ending : Record :=
    ⟨.debug, .session, "loop:77", "session ended after " ++ s.runs.repr ++ " runs"⟩
  { s with machine := { s.machine with journal := s.machine.journal.push ending } }

/-- How a session went: the text written before each reading and after the last, and the number of
runs, unless it broke off. -/
structure Transcript where
  session : Session
  chunks : Array String
  outcome : Except Breakdown Nat

def Transcript.text (t : Transcript) : String := String.join t.chunks.toList

/-- Reads the lines in turn, with `pending` still to be written before the next prompt. The end of
the input closes the session, unless the input is broken there. -/
def converse (s : Session) (chunks : Array String) (pending : String)
    (broken : Option Text.Utf8.Fault) : List String → Transcript
  | [] =>
    let chunks := chunks.push (pending ++ s.prompt)
    match broken with
    | some fault => ⟨s, chunks.push "", .error (.input fault)⟩
    | none => ⟨s.close, chunks.push "\n", .ok s.runs⟩
  | line :: rest =>
    let chunks := chunks.push (pending ++ s.prompt)
    match s.answer line with
    | (s, .text text) => s.converse chunks text broken rest
    | (s, .over) => ⟨s.close, chunks.push "", .ok s.runs⟩
    | (s, .broken reason) => ⟨s, chunks.push "", .error reason⟩

def greeting (s : Session) : String :=
  ended [s.machine.status.text, "Type :help for commands."]

def hold (s : Session) (lines : List String) (broken : Option Text.Utf8.Fault := none) : Transcript :=
  s.converse #[] s.greeting broken lines

end Session
end RegisterMachine
