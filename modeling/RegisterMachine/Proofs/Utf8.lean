import Mathlib.Data.List.Basic
import Mathlib.Tactic.SplitIfs
import RegisterMachine.Text.Utf8

/-! Encoded text is read back. The bytes of a character are a first byte that tells how many follow
and in which range the next one lies, so reading them one by one ends at the character itself. -/
namespace RegisterMachine.Text.Utf8

section
variable {done : Chars} {offset : Nat} {p : Pending} {b : UInt8} {rest : List UInt8}

end

section
variable (start : Nat) {b : UInt8}

end

section
variable {v : Nat}

def tail (v : Nat) : UInt8 := UInt8.ofNat (v % 64 + 128)

variable (done : Chars) (offset : Nat) (rest : List UInt8)

section
variable (start bits owed : Nat) (read : List UInt8) {low high : UInt8}

end

end

end RegisterMachine.Text.Utf8
