import RegisterMachine.Config
import RegisterMachine.Step
import RegisterMachine.Trace

/-! The processor: registers, a trace and a journal, changed by one line at a time. -/
namespace RegisterMachine

structure Processor where
  config : Config
  registers : Registers
  trace : Trace := {}
  journal : Journal := #[]

namespace Processor

def ofConfig (config : Config) : Processor := { config, registers := .ofNames config.names }

def write (p : Processor) (line : String) : Processor := { p with trace := p.trace.write line }

/-- What a step leaves behind once its line is echoed. -/
def commit (p : Processor) (s : Step) : Processor :=
  { p with
    registers := s.apply p.registers
    trace := (p.trace.write s.report).write ""
    journal := match s.record? with
      | some r => p.journal.push r
      | none => p.journal }

/-- The echo is written before anything can go wrong, so it stays when the step comes to nothing. -/
def perform (p : Processor) (i : Instruction) : Processor × Except Numeral.Excess Step :=
  let p := p.write (Step.echo i)
  match Step.take p.config.width p.registers i with
  | .ok s => (p.commit s, .ok s)
  | .error e => (p, .error e)

def execute (p : Processor) (s : String) (line : Int := 0) :
    Processor × Except Numeral.Excess (Option Step) :=
  match Instruction.parse p.config.comments line s with
  | none => (p, .ok none)
  | some i =>
    let (p, outcome) := p.perform i
    (p, outcome.map some)

@[simp] theorem config_perform (p : Processor) (i : Instruction) :
    (p.perform i).1.config = p.config := by
  simp only [perform]; split <;> rfl

@[simp] theorem config_execute (p : Processor) (s : String) (line : Int) :
    (p.execute s line).1.config = p.config := by
  unfold execute; split <;> simp

end Processor
end RegisterMachine
