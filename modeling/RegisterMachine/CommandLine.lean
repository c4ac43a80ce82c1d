import RegisterMachine.CommandLine.Console
import RegisterMachine.CommandLine.Help
import RegisterMachine.CommandLine.Options
import RegisterMachine.Program
import RegisterMachine.Session

/-! The command line: a program is read, run and its trace written, unless the options ask for
something else. They are looked at in a fixed order: the log file is opened, the sample program
shown, the configuration made, a session held, the program read, listed, and last of all run. -/
namespace RegisterMachine

inductive ExitCode where
  | success
  | failed
  | refused
  deriving DecidableEq, Repr

/-- Nought if all went well, one if a line of the program failed, two if nothing could be done. -/
def ExitCode.number : ExitCode → UInt32
  | success => 0
  | failed => 1
  | refused => 2

namespace CommandLine

abbrev Outcome := Console × Except Console.Failure ExitCode

def refuse (c : Console) (text : String) : Outcome := (c.complain text, .ok .refused)

def reportText (m : Machine) (report : Report) (showRegisters : Bool) :
    Except Registers.TableFault String :=
  if showRegisters then m.registers.table.map fun table => report.text ++ "\n\n" ++ table
  else .ok report.text

def deliver (c : Console) (text name : String) : Except Console.Failure Console :=
  if name = "" then .ok (c.say text)
  else match c.files.write name text.toUTF8 with
    | .ok files => .ok { c with files }
    | .error e => .error (.path e)

def runProgram (c : Console) (o : Options) (config : Config) (name source : String) : Outcome :=
  let c := c.note [⟨.debug, .commandLine, "main:136", "program: " ++ name ++ " (" ++
    source.length.repr ++ " bytes), registers: " ++ ", ".intercalate config.names⟩]
  let (m, outcome) := (Machine.ofConfig config).run source
  let c := c.note m.journal.toList
  match outcome with
  | .error e => (c, .error (.work (.run e)))
  | .ok report =>
    match reportText m report o.showRegisters with
    | .error e => (c, .error (.work (.table e)))
    | .ok text =>
      match deliver c (text ++ "\n") ((o.output.map Argument.text).getD "") with
      | .error e => (c, .error e)
      | .ok c =>
        let failures := report.failures.length
        let c := if failures = 0 then c else
          c.note [⟨.warning, .commandLine, "main:152", failures.repr ++ " line(s) failed"⟩]
        (c, .ok (if report.ok then .success else .failed))

def readProgram (c : Console) (o : Options) (config : Config) (name : String) : Outcome :=
  match c.fetch name with
  | .error e => (c, .error e)
  | .ok (.error fault) => refuse c (fault.message name ++ "\n")
  | .ok (.ok source) =>
    if o.dump then (c.say (Program.listing (Program.parse config.comments source)), .ok .success)
    else runProgram c o config name source

/-- How far a command line comes without its input being typed: to its end, or to a session. -/
inductive Stage where
  | over (outcome : Except Console.Failure ExitCode)
  | session (config : Config)

def Outcome.stage (o : Outcome) : Console × Stage := (o.1, .over o.2)

def work (c : Console) (o : Options) (config : Config) : Console × Stage :=
  if o.interactive then (c, .session config)
  else match o.program with
    | none | some "" =>
      (refuse c (usage ++ "Error: a program file (or '-') is required\n")).stage
    | some name => (readProgram c o config name).stage

def obey (c : Console) (o : Options) : Console × Stage :=
  let c := { c with threshold := if o.verbose then .debug else .warning }
  match c.openLog ((o.logFile.map Argument.text).getD "") with
  | (c, .error e) => (c, .over (.error e))
  | (c, .ok ()) =>
    if o.sample then (c.say Program.sample, .over (.ok .success))
    else match o.config with
      | .error (.rejected reason) =>
        (refuse c ("Config error: " ++ reason.message ++ "\n")).stage
      | .error failure => (c, .over (.error (.config failure)))
      | .ok config => work c o config

def start (c : Console) (words : List String) : Console × Stage :=
  match Options.ofStrings words with
  | .ok o => obey c o
  | .error .help => (c.say helpText, .over (.ok .success))
  | .error .version => (c.say ("regvm " ++ versionText ++ "\n"), .over (.ok .success))
  | .error (.misuse e) => (refuse c (usage ++ "regvm: error: " ++ e.message ++ "\n")).stage

def paths (words : List String) : List String :=
  match Options.ofStrings words with
  | .error _ => []
  | .ok o => o.program.toList ++ (o.output.toList ++ o.logFile.toList).map Argument.text

def readsInput (words : List String) : Bool :=
  match Options.ofStrings words with
  | .error _ => false
  | .ok o => o.program = some "-" && !o.interactive

def closeSession (c : Console) (t : Session.Transcript) : Outcome :=
  ((c.say t.text).note t.session.machine.journal.toList, match t.outcome with
    | .ok _ => .ok .success
    | .error reason => .error (.work reason))

def run (c : Console) (words : List String) : Outcome :=
  match start c words with
  | (c, .over outcome) => (c, outcome)
  | (c, .session config) =>
    let (lines, broken) := Text.Utf8.readLines c.input
    closeSession c ((Session.ofConfig config).hold lines broken)

/-- One of the command lines that a process carries out, with the input that it is given and the
times of its records. -/
structure Call where
  words : List String
  input : ByteArray := .empty
  clock : Nat → String := fun _ => ""

/-- The console of a call. The files are as the calls before left them, and the log file that was
opened last is still open. -/
def Call.console (call : Call) (c : Console) : Console :=
  { files := c.files, log := c.log, input := call.input, clock := call.clock }

def serve (c : Console) (call : Call) : Outcome := run (call.console c) call.words

end CommandLine
end RegisterMachine
