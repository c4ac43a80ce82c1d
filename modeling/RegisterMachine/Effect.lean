import RegisterMachine.Instruction
import RegisterMachine.Registers
import RegisterMachine.Width

/-! Effects: what an instruction does to the registers once all its operands are known to be good.
Finding the effect changes nothing, so an instruction that fails leaves every register as it was. -/
namespace RegisterMachine

inductive Effect where
  | load (target token : String) (value : Int)
  | add (target source : String) (total : Int)
  | print (source : String) (value : Int)
  deriving DecidableEq, Repr

/-- Why an instruction has no effect: a fault that is reported on its line, or an integer that
exceeds what can be had or shown, which no report can mend. -/
inductive Obstacle where
  | fault (fault : Fault)
  | excess (excess : Numeral.Excess)
  deriving DecidableEq, Repr

def Literal.operand (low high : Option Int) (token : String) : Except Obstacle Int :=
  match Literal.read low high token with
  | .ok v => .ok v
  | .error defect =>
    if defect.Writable then .error (.fault (.literal token defect)) else .error (.excess .written)

namespace Effect

def load? (w : Width) (r : Registers) (target token : String) : Except Obstacle Effect :=
  match r.get? target with
  | none => .error (.fault (r.unknown target))
  | some _ => match w.bounds with
    | .error e => .error (.excess e)
    | .ok (low, high) => (Literal.operand low high token).map (load target token)

/-- The sum is folded into the word; unbounded registers have no word and may overflow instead. -/
def add? (w : Width) (r : Registers) (target source : String) : Except Obstacle Effect :=
  match r.get? target, r.get? source with
  | none, _ => .error (.fault (r.unknown target))
  | some _, none => .error (.fault (r.unknown source))
  | some a, some b => match w.fold (a + b) with
    | .error e => .error (.excess e)
    | .ok total =>
      if w.Holds total then .ok (add target source total)
      else .error (.fault (.overflow target Width.unboundedBits))

def print? (r : Registers) (source : String) : Except Obstacle Effect :=
  match r.get? source with
  | none => .error (.fault (r.unknown source))
  | some v => if Numeral.Fits v then .ok (print source v) else .error (.excess .written)

/-- Operands are counted first; those past the opcode's arity are ignored. -/
def find (w : Width) (r : Registers) : Opcode → List String → Except Obstacle Effect
  | .load, target :: token :: _ => load? w r target token
  | .add, target :: source :: _ => add? w r target source
  | .print, source :: _ => print? r source
  | op, operands => .error (.fault (.arity op.name op.arity operands.length))

def apply : Effect → Registers → Registers
  | load target _ value, r => r.set target value
  | add target _ total, r => r.set target total
  | print _ _, r => r

def report : Effect → String
  | load target token _ => "Loaded value " ++ token ++ " into " ++ target
  | add target source _ => "Added value from " ++ source ++ " to " ++ target
  | print source value => "Value in " ++ source ++ ": " ++ Numeral.text value

@[simp] theorem names_apply (e : Effect) (r : Registers) : (e.apply r).names = r.names := by
  cases e <;> simp [apply]

end Effect
end RegisterMachine
