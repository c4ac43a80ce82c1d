import RegisterMachine.Numeral
import RegisterMachine.Text.Blank
import RegisterMachine.Text.DecimalDigit

/-! Integers as people spell them: blanks around, a sign, decimal digits of any script, and
single underscores between digits. -/
namespace RegisterMachine.Numeral
open Text

/-- Blanks that may stand around a number; the four information separators may not. -/
def isMargin (c : Char) : Bool := isBlank c && !(0x1C ≤ c.toNat && c.toNat ≤ 0x1F)

/-- The values of the digits; an underscore must have a digit on either side. -/
def spelledDigits? : Chars → Option (List Nat)
  | [] => none
  | [c] => (decimalValue? c).map ([·])
  | c :: '_' :: cs => do return (← decimalValue? c) :: (← spelledDigits? cs)
  | c :: cs => do return (← decimalValue? c) :: (← spelledDigits? cs)

def positional (digits : List Nat) : Nat := digits.foldl (fun n d => 10 * n + d) 0

/-- Leading zeros count towards the limit. -/
def magnitude? (cs : Chars) : Option Nat := do
  let digits ← spelledDigits? cs
  if digits.length ≤ maxDigits then some (positional digits) else none

def read? (s : String) : Option Int :=
  let cs := ((s.toList.dropWhile isMargin).reverse.dropWhile isMargin).reverse
  match cs with
  | '-' :: rest => (magnitude? rest).map fun n => -(n : Int)
  | '+' :: rest => (magnitude? rest).map Int.ofNat
  | _ => (magnitude? cs).map Int.ofNat

end RegisterMachine.Numeral
