import RegisterMachine.Instruction
import RegisterMachine.Text.Align
import RegisterMachine.Text.Lines

/-! Whole programs: the instructions of a source text in order, numbered by their lines. -/
namespace RegisterMachine.Program

def parseLines (comments : Bool) (number : Int) : List String → List Instruction
  | [] => []
  | s :: rest =>
    match Instruction.parse comments number s with
    | none => parseLines comments (number + 1) rest
    | some i => i :: parseLines comments (number + 1) rest

def parse (comments : Bool) (source : String) : List Instruction :=
  parseLines comments 1 (Text.lines source)

def listing (program : List Instruction) : String :=
  String.join (program.map fun i =>
    Text.alignRight 4 (Numeral.text i.line) ++ "  " ++ i.code ++ "\n")

def sampleLines : List String := [
  "LOAD R1 5   // Load 5 into R1",
  "LOAD R2 10  // Load 10 into R2",
  "ADD R1 R2   // Add R2 to R1",
  "PRINT R1    // Print the value in R1",
  "PRINT R2    // Print the value in R2"]

def sample : String := Text.unlines sampleLines ++ "\n"

end RegisterMachine.Program
