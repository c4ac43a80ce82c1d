import RegisterMachine.Registers

/-! The register table: one row a cell, the names in a column of their own. -/
namespace RegisterMachine.Registers

/-- Why there is no table: no name to take the width from, a width that is none, a value too long. -/
inductive TableFault where
  | noNames
  | negativeWidth
  | hugeWidth
  | excess (excess : Numeral.Excess)
  deriving DecidableEq, Repr

def TableFault.message : TableFault → String
  | noNames => "max() arg is an empty sequence"
  | negativeWidth => "Sign not allowed in string format specifier"
  | hugeWidth => "Too many decimal digits in format string"
  | excess e => e.message

/-- Widths are signed words of 64 bits. -/
def checkWidth (width : Int) : Except TableFault Nat :=
  if width < 0 then .error .negativeWidth
  else if Numeral.wordEnd ≤ width then .error .hugeWidth
  else .ok width.toNat

def nameWidth (names : List String) : Nat := names.foldl (fun n name => max n name.length) 0

def row (width : Nat) (cell : String × Int) : Except TableFault String :=
  match Numeral.write? cell.2 with
  | some value => .ok (Text.alignLeft width cell.1 ++ " = " ++ value)
  | none => .error (.excess .written)

def tableOfWidth (r : Registers) (width : Int) : Except TableFault String :=
  (r.cells.mapM fun cell => do row (← checkWidth width) cell).map Text.unlines

/-- The longest name makes the column, which then has room for it. -/
def table (r : Registers) : Except TableFault String :=
  if r.cells.isEmpty then .error .noNames
  else (r.cells.mapM (row (nameWidth r.names))).map Text.unlines

def describe? (r : Registers) : Option String := do
  let parts ← r.entries.mapM fun entry => (Numeral.write? entry.2).map (entry.1 ++ "=" ++ ·)
  return "RegisterFile(" ++ " ".intercalate parts ++ ")"

end RegisterMachine.Registers
