import RegisterMachine.Text.Blank

/-! Lines under universal newlines: a line feed, a carriage return, and the two in that order
each end one line. A text of n line ends has n + 1 lines, the last of them possibly empty. -/
namespace RegisterMachine.Text

namespace Chars

/-- Every line end becomes a line feed; a carriage return and the line feed after it are one. -/
def unifyEnds : Chars → Chars
  | [] => []
  | '\r' :: '\n' :: cs => '\n' :: unifyEnds cs
  | '\r' :: cs => '\n' :: unifyEnds cs
  | c :: cs => c :: unifyEnds cs

@[simp] theorem unifyEnds_nil : unifyEnds [] = [] := rfl

theorem return_not_mem_unifyEnds (cs : Chars) : '\r' ∉ unifyEnds cs := by
  fun_induction unifyEnds cs with
  | case1 => simp
  | case2 cs ih => simp [ih]
  | case3 cs _ ih => simp [ih]
  | case4 c cs _ hc ih => simp only [List.mem_cons, not_or]; exact ⟨fun h => hc h.symm, ih⟩

def lines (cs : Chars) : List Chars := (unifyEnds cs).splitOn '\n'

@[simp] theorem lines_nil : lines [] = [[]] := rfl

theorem lines_ne_nil (cs : Chars) : lines cs ≠ [] := List.splitOn_ne_nil _ _

/-- The lines that a line feed ends. Carriage returns are ordinary characters here. -/
def fedLines (cs : Chars) : List Chars := (cs.splitOn '\n').dropLast

def unfedRest (cs : Chars) : Chars := ((cs.splitOn '\n').getLast?).getD []

end Chars

def unifyEnds (s : String) : String := String.ofList (Chars.unifyEnds s.toList)

def lines (s : String) : List String := (Chars.lines s.toList).map String.ofList

def fedLines (s : String) : List String := (Chars.fedLines s.toList).map String.ofList

/-- Lines as they are read one by one: the last need not be ended, but it is not empty then. -/
def readLines (s : String) : List String :=
  let rest := String.ofList (Chars.unfedRest s.toList)
  if rest = "" then fedLines s else fedLines s ++ [rest]

/-- Pieces put one under the other, with no line feed after the last. -/
def unlines (pieces : List String) : String := "\n".intercalate pieces

end RegisterMachine.Text
