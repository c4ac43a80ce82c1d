import RegisterMachine.Proofs.Edit

/-! Programs written out. What a line is split into holds no blank and starts no comment, so the
instructions of a source, put one on a line, are read back as they were but for their places. A
program written out therefore runs as its source does. -/
namespace RegisterMachine

theorem IsToken.uncommented {t : String} (h : IsToken true t) : IsToken false t :=
  ⟨h.1, fun comments => by cases comments⟩

namespace Instruction

def printed (i : Instruction) (line : Int) : Instruction := { i with line, text := i.code }

@[simp] theorem signature_printed (i : Instruction) (line : Int) :
    (i.printed line).signature = i.signature := rfl

end Instruction

namespace Program

def print (program : List Instruction) : String := Text.unlines (program.map Instruction.code)

theorem written_of_mem_parse (comments : Bool) (source : String) :
    ∀ i ∈ parse comments source, i.Written comments := by
  intro i hi
  obtain ⟨k, s, _, parse⟩ := mem_parseLines_iff.mp hi
  exact Instruction.written_of_parse parse

section
variable {comments : Bool} {program : List Instruction}
  (written : ∀ i ∈ program, i.Written comments)
include written

theorem parseLines_codes (number : Int) :
    parseLines comments number (program.map Instruction.code) =
      program.mapIdx fun k i => i.printed (number + k) := by
  induction program generalizing number with
  | nil => rfl
  | cons i program ih =>
    obtain ⟨first, others⟩ := List.forall_mem_cons.mp written
    have shift (k : Nat) : number + 1 + k = number + (k + 1 : Nat) := by omega
    simp only [List.map_cons, parseLines, Instruction.parse_code first, ih others, shift,
      List.mapIdx_cons]
    simp [Instruction.printed]

theorem parse_print :
    parse comments (print program) = program.mapIdx fun k i => i.printed (1 + k) := by
  have lines : ∀ s ∈ program.map Instruction.code, Text.IsLine s := by
    intro s hs
    obtain ⟨i, hi, rfl⟩ := List.mem_map.mp hs
    exact Instruction.isLine_code (written i hi)
  rw [← parseLines_codes written]
  cases program with
  | nil => cases comments <;> decide +kernel
  | cons i program => rw [parse, print, Text.lines_unlines lines (by simp)]

end

theorem signatures_print (comments : Bool) (source : String) :
    signatures comments (print (parse comments source)) = signatures comments source := by
  rw [signatures, parse_print (written_of_mem_parse comments source), signatures]
  apply List.ext_getElem?
  simp [Function.comp_def]

/-- Writing out the instructions of a source and reading them back gives each with its opcode and
operands, numbered in turn; comments need no longer be looked for. And a machine does on what is
written out what it does on the source. -/
theorem printing_keeps_meaning :
    (∀ (comments : Bool) (source : String),
      parse comments (print (parse comments source)) =
        (parse comments source).mapIdx fun k i => { i with line := 1 + k, text := i.code }) ∧
    (∀ source : String,
      parse false (print (parse true source)) = parse true (print (parse true source))) ∧
    ∀ (m : Machine) (source : String),
      SameRun (m.run source).2 (m.run (print (parse m.config.comments source))).2 := by
  refine ⟨fun comments source => parse_print (written_of_mem_parse comments source),
    fun source => ?_, fun m source => ?_⟩
  · have written := written_of_mem_parse true source
    rw [parse_print written, parse_print fun i hi t ht => (written i hi t ht).uncommented]
  · have alike := m.sameRun_of_signatures (signatures_print m.config.comments source).symm
    exact alike

end Program
end RegisterMachine
