import RegisterMachine.Effect
import RegisterMachine.Record

/-! Steps: what became of one line with code. A step decides the three lines of its block in the
trace, the record that is kept of it, and the registers after it. -/
namespace RegisterMachine

inductive Verdict where
  | done (effect : Effect)
  | unknownOpcode
  | failed (failure : LineFault)
  deriving DecidableEq, Repr

structure Step where
  instruction : Instruction
  verdict : Verdict
  deriving DecidableEq, Repr

namespace Step

def take (w : Width) (r : Registers) (i : Instruction) : Except Numeral.Excess Step :=
  match Opcode.ofName? i.opcode with
  | none => .ok ⟨i, .unknownOpcode⟩
  | some op => match Effect.find w r op i.operands with
    | .ok effect => .ok ⟨i, .done effect⟩
    | .error (.fault fault) => .ok ⟨i, .failed (LineFault.atLine { fault } i.line i.text)⟩
    | .error (.excess e) => .error e

def line (s : Step) : Int := s.instruction.line

def failure? (s : Step) : Option LineFault :=
  match s.verdict with
  | .failed failure => some failure
  | _ => none

/-- An unknown opcode is no failure. -/
def failed (s : Step) : Bool := s.failure?.isSome

def apply (s : Step) (r : Registers) : Registers :=
  match s.verdict with
  | .done effect => effect.apply r
  | _ => r

def echo (i : Instruction) : String := "Executing: " ++ i.text

/-- Line 0 is not named. -/
def place (line : Int) : String := if line = 0 then "" else " on line " ++ Numeral.text line

def report (s : Step) : String :=
  match s.verdict with
  | .done effect => effect.report
  | .unknownOpcode => "Unknown instruction: " ++ s.instruction.opcode
  | .failed failure => "Error" ++ place failure.line ++ ": " ++ failure.reason

def block (s : Step) : List String := [echo s.instruction, s.report, ""]

/-- An instruction that did all that was asked of it leaves no record. -/
def record? (s : Step) : Option Record :=
  match s.verdict with
  | .done _ =>
    if s.instruction.extra = [] then none
    else some ⟨.debug, .processor, "execute_instruction:142", "line " ++ Numeral.text s.line ++
      ": ignoring extra operands " ++ " ".intercalate s.instruction.extra⟩
  | .unknownOpcode =>
    some ⟨.debug, .processor, "execute_instruction:128", "line " ++ Numeral.text s.line ++
      ": unknown opcode " ++ Text.quoted s.instruction.opcode⟩
  | .failed failure =>
    some ⟨.warning, .processor, "execute_instruction:138",
      s.instruction.text ++ ": " ++ failure.message⟩

@[simp] theorem length_block (s : Step) : s.block.length = 3 := rfl

@[simp] theorem names_apply (s : Step) (r : Registers) : (s.apply r).names = r.names := by
  unfold apply; split <;> simp

theorem apply_of_failed {s : Step} (h : s.failed = true) (r : Registers) : s.apply r = r := by
  unfold failed failure? at h
  unfold apply
  split at h
  · simp [*]
  · simp at h

end Step
end RegisterMachine
