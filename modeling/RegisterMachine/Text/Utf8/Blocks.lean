import RegisterMachine.Text.Lines
import RegisterMachine.Text.Utf8

/-! UTF-8 that arrives in blocks and is read line by line. Nothing of a block with a fault is read;
the fault is counted from the start of what was decoded with that block. -/
namespace RegisterMachine.Text.Utf8

def blockSize : Nat := 8192

/-- Where a fault shows: at the first byte that does not fit. A character that would be a surrogate
shows only with the byte after that, and one that is cut short at the end of the input. -/
def Fault.shownAt (f : Fault) (input : ByteArray) : Nat :=
  match f.reason with
  | .badStart => f.start
  | .unexpectedEnd => input.size
  | .badContinuation =>
    let misfit := f.start + f.bytes.length
    let surrogate := f.bytes = [0xED] ∧ ∃ b ∈ input[misfit]?, 0xA0 ≤ b ∧ b ≤ 0xBF
    if surrogate then misfit + 1 else misfit

/-- The lines that are known to be ended: a carriage return at the very end may have a line feed
still to come. -/
def endedLines (s : String) : List String :=
  let cs := s.toList
  let settled := if cs.getLast? = some '\r' then cs.dropLast else cs
  fedLines (unifyEnds (String.ofList settled))

/-- The lines before the first fault, and the fault. A character may begin in one block and break
in the next, which then starts with the bytes carried over; what is cut short at the end of the
input stands alone. -/
def readLines (input : ByteArray) : List String × Option Fault :=
  match read input with
  | (text, none) => (Text.readLines (unifyEnds text), none)
  | (text, some fault) =>
    let shown := fault.shownAt input
    if input.size ≤ shown then (endedLines text, some { fault with start := 0 })
    else
      let whole := shown / blockSize * blockSize
      let (text, partly) := read (input.extract 0 whole)
      let carried := (partly.map fun f => whole - f.start).getD 0
      (endedLines text, some { fault with start := fault.start + carried - whole })

end RegisterMachine.Text.Utf8
