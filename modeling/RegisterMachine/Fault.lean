import RegisterMachine.Literal
import RegisterMachine.Text.Quoted

/-! Faults: why a line of a program failed. A fault is a cause; where it happened is attached to
it afterwards, and only then does it have a full message. -/
namespace RegisterMachine

inductive Fault where
  | other (reason : String)
  | arity (opcode : String) (expected got : Int)
  | literal (token : String) (defect : Literal.Defect)
  | unknownRegister (name : String) (known : List String)
  | overflow (register : String) (bits : Int)
  deriving DecidableEq, Repr

namespace Fault

/-- A long token is cut after twenty characters and its length is given. -/
def excerpt (token : String) : String :=
  if token.length ≤ 40 then token
  else String.ofList (token.toList.take 20) ++ "...(" ++ token.length.repr ++ " chars)"

def reason : Fault → String
  | other reason => reason
  | arity opcode expected got =>
    opcode ++ " expects " ++ Numeral.text expected ++
      (if expected = 1 then " operand" else " operands") ++ ", got " ++ Numeral.text got
  | literal token defect => Text.quoted (excerpt token) ++ " is " ++ defect.detail
  | unknownRegister name known =>
    "Unknown register " ++ Text.quoted name ++
      (if known = [] then "" else " (expected one of: " ++ ", ".intercalate known ++ ")")
  | overflow register bits => "Result for " ++ register ++ " exceeds " ++ Numeral.text bits ++ " bits"

end Fault

/-- A fault with the line it happened on; line 0 is no line. -/
structure LineFault where
  fault : Fault
  line : Int := 0
  text : String := ""
  deriving DecidableEq, Repr

namespace LineFault

def reason (f : LineFault) : String := f.fault.reason

/-- The line of a fault can be given more than once; the last one counts. -/
def atLine (f : LineFault) (line : Int) (text : String) : LineFault := { f with line, text }

@[simp] theorem atLine_atLine (f : LineFault) (l₁ l₂ : Int) (t₁ t₂ : String) :
    (f.atLine l₁ t₁).atLine l₂ t₂ = f.atLine l₂ t₂ := rfl

def message (f : LineFault) : String :=
  if f.line = 0 then f.reason else "Line " ++ Numeral.text f.line ++ ": " ++ f.reason

end LineFault
end RegisterMachine
