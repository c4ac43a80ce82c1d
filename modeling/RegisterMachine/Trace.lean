import RegisterMachine.Text.Lines

/-! The trace: lines of text that are only ever added, or cleared all at once. -/
namespace RegisterMachine

structure Trace where
  lines : Array String := #[]
  deriving DecidableEq, Repr

namespace Trace

def empty : Trace := {}

def ofList (lines : List String) : Trace := ⟨lines.toArray⟩

def toList (t : Trace) : List String := t.lines.toList

def size (t : Trace) : Nat := t.lines.size

def write (t : Trace) (line : String) : Trace := ⟨t.lines.push line⟩

def text (t : Trace) : String := Text.unlines t.toList

def describe (t : Trace) : String := "OutputLog(" ++ t.size.repr ++ " lines)"

@[simp] theorem toList_empty : empty.toList = [] := rfl

@[simp] theorem toList_ofList (lines : List String) : (ofList lines).toList = lines := rfl

@[simp] theorem toList_write (t : Trace) (line : String) :
    (t.write line).toList = t.toList ++ [line] := by
  simp [write, toList]

end Trace
end RegisterMachine
