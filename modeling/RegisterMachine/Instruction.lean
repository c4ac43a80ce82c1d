import RegisterMachine.Fault
import RegisterMachine.Text.Comment

/-! Instructions: one line of a program, split into an opcode and its operands. Splitting never
fails; an unknown opcode or a missing operand shows only when the instruction is carried out. -/
namespace RegisterMachine

inductive Opcode where
  | load
  | add
  | print
  deriving DecidableEq, Repr

namespace Opcode

def all : List Opcode := [load, add, print]

def name : Opcode → String
  | load => "LOAD"
  | add => "ADD"
  | print => "PRINT"

def arity : Opcode → Nat
  | load => 2
  | add => 2
  | print => 1

def ofName? (s : String) : Option Opcode := all.find? (·.name = s)

@[simp] theorem ofName?_name (op : Opcode) : ofName? op.name = some op := by cases op <;> rfl

theorem name_of_ofName? {s : String} {op : Opcode} (h : ofName? s = some op) : op.name = s := by
  simpa using List.find?_some h

theorem ofName?_eq_some_iff {s : String} {op : Opcode} : ofName? s = some op ↔ op.name = s :=
  ⟨name_of_ofName?, fun h => h ▸ ofName?_name op⟩

end Opcode

/-- The text is the whole trimmed line, comment included. -/
structure Instruction where
  opcode : String
  operands : List String := []
  line : Int := 0
  text : String := ""
  deriving DecidableEq, Repr

namespace Instruction

def parse (comments : Bool) (line : Int) (s : String) : Option Instruction :=
  let text := Text.trim s
  match Text.words (if comments then Text.beforeComment text else text) with
  | [] => none
  | opcode :: operands => some { opcode, operands, line, text }

def known (i : Instruction) : Bool := (Opcode.ofName? i.opcode).isSome

def extra (i : Instruction) : List String :=
  match Opcode.ofName? i.opcode with
  | none => []
  | some op => i.operands.drop op.arity

/-- Negative indices count from the end. -/
def operand? (i : Instruction) (index : Int) : Option String :=
  let position := if index < 0 then index + i.operands.length else index
  if position < 0 then none else i.operands[position.toNat]?

/-- Why an index gives no operand: it lies outside the list, or is no signed word of 64 bits. -/
inductive IndexFault where
  | outside
  | noWord
  deriving DecidableEq, Repr

def IndexFault.message : IndexFault → String
  | outside => "tuple index out of range"
  | noWord => "cannot fit 'int' into an index-sized integer"

def operandAt (i : Instruction) (index : Int) : Except IndexFault String :=
  if index < -Numeral.wordEnd ∨ Numeral.wordEnd ≤ index then .error .noWord
  else match i.operand? index with
    | some s => .ok s
    | none => .error .outside

def require (i : Instruction) (count : Int) : Except Fault Unit :=
  if (i.operands.length : Int) < count then .error (.arity i.opcode count i.operands.length)
  else .ok ()

def code (i : Instruction) : String := " ".intercalate (i.opcode :: i.operands)

end Instruction
end RegisterMachine
