import RegisterMachine.Processor

/-! The report of a run: its trace, its steps and failures, the registers it ended with and how it
ended. While a run lasts its steps and failures are tallied, each as it happens. -/
namespace RegisterMachine

inductive Status where
  | idle
  | ready
  | completed
  | aborted (line : Int)
  deriving DecidableEq, Repr

namespace Status

def abortedOn (line : String) : String := "Execution aborted on line " ++ line ++ "."

def text : Status → String
  | idle => "VM idle. Ready for instructions."
  | ready => "VM reset. Ready for new instructions."
  | completed => "Execution completed."
  | aborted line => abortedOn (Numeral.text line)

end Status

/-- What a run has come to so far. -/
structure Tally where
  steps : Array Step := #[]
  failures : Array LineFault := #[]
  aborted : Bool := false
  deriving DecidableEq, Repr

def Tally.add (t : Tally) (s : Step) : Tally :=
  { t with
    steps := t.steps.push s
    failures := match s.failure? with
      | some failure => t.failures.push failure
      | none => t.failures }

structure Report where
  lines : List String
  registers : Registers
  steps : List Step
  failures : List LineFault
  aborted : Bool
  status : Status
  deriving DecidableEq, Repr

namespace Report

def ok (r : Report) : Bool := r.failures.isEmpty && !r.aborted

def text (r : Report) : String := Text.unlines r.lines

def unknown (r : Report) : List Step := r.steps.filter (·.verdict = .unknownOpcode)

end Report
end RegisterMachine
