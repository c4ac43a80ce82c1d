import RegisterMachine.Text.Align

/-! Log records: what a part of the machine has to say beside its trace. -/
namespace RegisterMachine

inductive Level where
  | debug
  | info
  | warning
  deriving DecidableEq, Repr

def Level.name : Level → String
  | debug => "DEBUG"
  | info => "INFO"
  | warning => "WARNING"

/-- Records of a higher rank matter more. -/
def Level.rank : Level → Nat
  | debug => 0
  | info => 1
  | warning => 2

inductive Channel where
  | program
  | commandLine
  | processor
  | machine
  | session
  deriving DecidableEq, Repr

def Channel.name : Channel → String
  | program => "regvm"
  | commandLine => "regvm.cli"
  | processor => "regvm.executor"
  | machine => "regvm.runner"
  | session => "regvm.repl"

/-- The place is where in its part of the program the record comes up. -/
structure Record where
  level : Level
  channel : Channel
  place : String
  message : String
  deriving DecidableEq, Repr

def Record.line (r : Record) (time : String) : String :=
  " | ".intercalate [time, Text.alignLeft 7 r.level.name, r.channel.name, r.place, r.message]

/-- All records so far, oldest first. -/
abbrev Journal := Array Record

end RegisterMachine
