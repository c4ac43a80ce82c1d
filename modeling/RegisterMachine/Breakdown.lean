import RegisterMachine.Machine
import RegisterMachine.Registers.Table
import RegisterMachine.Text.Utf8

/-! Why work at a machine breaks off: a run that gives no report, registers that give no table, an
input that is no text. -/
namespace RegisterMachine

inductive Breakdown where
  | run (failure : RunFailure)
  | table (fault : Registers.TableFault)
  | input (fault : Text.Utf8.Fault)
  deriving DecidableEq, Repr

def Breakdown.message : Breakdown → String
  | run failure => failure.message
  | table fault => fault.message
  | input fault => fault.message

end RegisterMachine
