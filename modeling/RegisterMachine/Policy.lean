import RegisterMachine.Text.Blank

/-! What a run does after a failing line: go on with the next one, or stop. -/
namespace RegisterMachine

inductive Policy where
  | skip
  | abort
  deriving DecidableEq, Repr

namespace Policy

def all : List Policy := [skip, abort]

def name : Policy → String
  | skip => "skip"
  | abort => "abort"

def ofName? (s : String) : Option Policy := all.find? (·.name = s)

@[simp] theorem ofName?_name (p : Policy) : ofName? p.name = some p := by cases p <;> rfl

/-- The small letter of a capital. Beyond ASCII, the Kelvin sign is the only character whose small
letter occurs in a policy's name. -/
def foldLetter (c : Char) : Char := if c = '\u212A' then 'k' else c.toLower

def read? (s : String) : Option Policy :=
  ofName? (String.ofList ((Text.trim s).toList.map foldLetter))

end Policy
end RegisterMachine
