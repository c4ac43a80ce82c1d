import RegisterMachine.Report

/-! The machine: a processor that runs whole programs. A run starts from zeroed registers and an
empty trace, carries out every line once and in order, and ends with a status line. -/
namespace RegisterMachine

structure Machine extends Processor where
  status : Status := .idle
  running : Bool := false

/-- Why a run gives no report: the machine is running already, or a line came to an integer that
exceeds what it may. -/
inductive RunFailure where
  | busy
  | excess (excess : Numeral.Excess)
  deriving DecidableEq, Repr

def RunFailure.message : RunFailure → String
  | busy => "VM is already running a program"
  | excess e => e.message

/-- Carries out lines numbered from `number` on, adding to the tally. A failing step is the last
one if the policy is to abort. The status is the one to end with, unless the lines break off. -/
def Processor.runLines (p : Processor) (t : Tally) (number : Int) :
    List String → Processor × Tally × Except Numeral.Excess Status
  | [] => (p, t, .ok .completed)
  | s :: rest =>
    match p.execute (Text.trim s) number with
    | (p, .error e) => (p, t, .error e)
    | (p, .ok none) => p.runLines t (number + 1) rest
    | (p, .ok (some step)) =>
      let t := t.add step
      if step.failed ∧ p.config.policy = .abort then
        (p, { t with aborted := true }, .ok (.aborted number))
      else p.runLines t (number + 1) rest

namespace Machine

def ofConfig (config : Config) : Machine := { Processor.ofConfig config with }

def banner : String := "VM reset. Enter new instructions."

def reset (m : Machine) : Machine :=
  { m with
    registers := m.registers.reset
    trace := Trace.empty.write banner
    status := .ready
    journal := m.journal.push
      ⟨.debug, .machine, "reset:89", "VM reset (" ++ ", ".intercalate m.registers.names ++ ")"⟩ }

def begin (m : Machine) : Except RunFailure Machine :=
  if m.running then .error .busy else .ok { m.reset with running := true }

def finish (m : Machine) (t : Tally) (status : Status) : Machine × Report :=
  let trace := m.trace.write status.text
  let summary := "run finished: " ++ t.steps.size.repr ++ " instructions, " ++
    t.failures.size.repr ++ " errors" ++ (if t.aborted then " (aborted)" else "")
  ({ m with
      trace, status
      journal := m.journal.push ⟨.info, .machine, "run:118", summary⟩
      running := false },
    { lines := trace.toList
      registers := m.registers
      steps := t.steps.toList
      failures := t.failures.toList
      aborted := t.aborted
      status })

/-- The rest of a run that has begun. When the lines break off so does the trace, and the status
stays as the reset left it. -/
def proceed (m : Machine) (source : String) : Machine × Except RunFailure Report :=
  let (p, t, ending) := m.toProcessor.runLines {} 1 (Text.lines source)
  let m := { m with toProcessor := p }
  match ending with
  | .error e => ({ m with running := false }, .error (.excess e))
  | .ok status =>
    let (m, report) := m.finish t status
    (m, .ok report)

def run (m : Machine) (source : String) : Machine × Except RunFailure Report :=
  match m.begin with
  | .error e => (m, .error e)
  | .ok m => m.proceed source

def execute (m : Machine) (s : String) (line : Int := 0) :
    Machine × Except Numeral.Excess (Option Step) :=
  let (p, outcome) := m.toProcessor.execute s line
  ({ m with toProcessor := p }, outcome)

theorem begin_busy {m : Machine} (h : m.running = true) : m.begin = .error .busy := by
  simp [begin, h]

@[simp] theorem running_proceed (m : Machine) (source : String) :
    (m.proceed source).1.running = false := by
  simp only [proceed]; split <;> rfl

end Machine

def Config.run (config : Config) (source : String) : Except RunFailure Report :=
  ((Machine.ofConfig config).run source).2

end RegisterMachine
