import RegisterMachine.Policy
import RegisterMachine.Text.Lines
import RegisterMachine.Width

/-! The configuration of a machine: its register names, their width, what a failing line does and
whether comments are recognised. A value of the type is an accepted configuration. -/
namespace RegisterMachine

/-- A name has at least one character and no blank, so it can stand as an operand. -/
def isRegisterName (s : String) : Bool := !s.toList.isEmpty && s.toList.all (!Text.isBlank ·)

theorem isRegisterName_iff (s : String) :
    isRegisterName s = true ↔ s.toList ≠ [] ∧ ∀ c ∈ s.toList, Text.isBlank c = false := by
  simp [isRegisterName, -String.toList_eq_nil_iff]

structure Config where
  names : List String
  width : Width
  policy : Policy
  comments : Bool
  names_ne_nil : names ≠ []
  names_nodup : names.Nodup
  names_valid : ∀ n ∈ names, isRegisterName n = true
  deriving DecidableEq

namespace Config

def defaultNames : List String := ["R1", "R2", "R3"]

def defaultWidth : Width := .bits 32 (by decide)

def default : Config where
  names := defaultNames
  width := defaultWidth
  policy := .skip
  comments := true
  names_ne_nil := by simp [defaultNames]
  names_nodup := by simp [defaultNames]
  names_valid := by
    intro n h
    simp only [defaultNames, List.mem_cons, List.not_mem_nil, or_false] at h
    rcases h with rfl | rfl | rfl <;> rfl

instance : Inhabited Config := ⟨default⟩

end Config
end RegisterMachine
