import RegisterMachine.Proofs.Lockstep
import RegisterMachine.Proofs.Order

/-! What of a source a run depends on. An instruction stripped of its place, its text and the
operands it ignores makes the same step, stripped likewise; so two sources with the same signatures
have the same run but for echoes and line numbers. -/
namespace RegisterMachine

/-- The opcode and the operands that it uses, or those there are; an unknown opcode uses none. -/
def Instruction.signature (i : Instruction) : String × List String :=
  match Opcode.ofName? i.opcode with
  | none => (i.opcode, [])
  | some op => (i.opcode, i.operands.take op.arity)

def Program.signatures (comments : Bool) (source : String) : List (String × List String) :=
  (parse comments source).map Instruction.signature

def Instruction.bare (i : Instruction) : Instruction :=
  { opcode := i.signature.1, operands := i.signature.2 }

def Step.bare (s : Step) : Step where
  instruction := s.instruction.bare
  verdict := match s.verdict with
    | .failed f => .failed { fault := f.fault }
    | verdict => verdict

def Ending.bare : Ending → Ending
  | finished (.aborted _) => finished (.aborted 0)
  | finished status => finished status
  | broken i e => broken i.bare e

theorem Ending.completed_of_bare {ending : Ending} (h : ending.bare = .finished .completed) :
    ending = .finished .completed := by
  cases ending with
  | finished status =>
    cases status with
    | aborted line => cases h
    | idle | ready | completed => exact h
  | broken i e => cases h

@[simp] theorem Instruction.opcode_bare (i : Instruction) : i.bare.opcode = i.opcode := by
  unfold bare signature
  split <;> rfl

theorem Instruction.map_bare_of_signatures {program program' : List Instruction}
    (same : program.map signature = program'.map signature) :
    program.map bare = program'.map bare := by
  have same := congrArg (List.map fun s => ({ opcode := s.1, operands := s.2 } : Instruction)) same
  rwa [List.map_map, List.map_map] at same

theorem Instruction.operands_bare {i : Instruction} {op : Opcode}
    (opcode : Opcode.ofName? i.opcode = some op) : i.bare.operands = i.operands.take op.arity := by
  simp [bare, signature, opcode]

namespace Step
variable {w : Width} {r : Registers} {i : Instruction}

theorem take_bare : take w r i.bare = (take w r i).map bare := by
  unfold take
  rw [Instruction.opcode_bare]
  cases opcode : Opcode.ofName? i.opcode with
  | none => rfl
  | some op =>
    simp only [Instruction.operands_bare opcode, Effect.find_take_arity]
    cases Effect.find w r op i.operands with
    | ok effect => rfl
    | error obstacle => cases obstacle <;> rfl

theorem Taken.bare {s : Step} (h : Taken w r i s) : Taken w r i.bare s.bare := by
  apply taken_of_take
  rw [take_bare, take_of_taken h]
  rfl

theorem Stuck.bare {e : Numeral.Excess} (h : Stuck w r i e) : Stuck w r i.bare e := by
  apply stuck_of_take
  rw [take_bare, take_of_stuck h]
  rfl

@[simp] theorem apply_bare (s : Step) (r : Registers) : s.bare.apply r = s.apply r := by
  obtain ⟨i, verdict⟩ := s
  cases verdict <;> rfl

@[simp] theorem outcome_bare (s : Step) : s.bare.outcome = s.outcome := by
  obtain ⟨i, verdict⟩ := s
  cases verdict <;> rfl

@[simp] theorem failed_bare (s : Step) : s.bare.failed = s.failed := by
  obtain ⟨i, verdict⟩ := s
  cases verdict <;> rfl

theorem failure?_bare (s : Step) :
    s.bare.failure?.map LineFault.fault = s.failure?.map LineFault.fault := by
  obtain ⟨i, verdict⟩ := s
  cases verdict <;> rfl

theorem report_bare {s : Step} (h : s.failed = false) : s.bare.report = s.report := by
  obtain ⟨i, verdict⟩ := s
  cases verdict with
  | done effect => rfl
  | unknownOpcode => simp [Step.bare, report]
  | failed f => cases h

@[simp] theorem applyAll_map_bare (r : Registers) (steps : List Step) :
    applyAll r (steps.map bare) = applyAll r steps := by
  induction steps generalizing r with
  | nil => rfl
  | cons s steps ih => rw [List.map_cons, applyAll_cons, applyAll_cons, apply_bare, ih]

end Step

namespace Course
variable {w : Width} {policy : Policy} {r : Registers} {program : List Instruction}
  {steps : List Step} {ending : Ending}

theorem bare (h : Course w policy r program steps ending) :
    Course w policy r (program.map Instruction.bare) (steps.map Step.bare) ending.bare := by
  induction h with
  | done r => exact .done r
  | step taken goesOn rest ih =>
    rw [← Step.apply_bare] at ih
    exact .step taken.bare (by rwa [Step.failed_bare]) ih
  | abort taken failed stops => exact .abort taken.bare (by rwa [Step.failed_bare]) stops
  | broken stuck => exact .broken stuck.bare

theorem exists_of_signatures {program' : List Instruction}
    (same : program.map Instruction.signature = program'.map Instruction.signature)
    (h : Course w policy r program steps ending) :
    ∃ steps' ending', Course w policy r program' steps' ending' ∧
      steps.map Step.bare = steps'.map Step.bare ∧ ending.bare = ending'.bare := by
  obtain ⟨steps', ending', h'⟩ := exists_course w policy r program'
  have bare := h'.bare
  rw [← Instruction.map_bare_of_signatures same] at bare
  exact ⟨steps', ending', h', h.bare.unique bare⟩

end Course

theorem Program.filterMap_parseLines {α : Type} {f : Instruction → Option α}
    (placeless : ∀ opcode operands line text, f ⟨opcode, operands, line, text⟩ =
      f { opcode, operands }) (comments : Bool) (number : Int) (lines : List String) :
    (parseLines comments number lines).filterMap f =
      lines.filterMap fun s => (Instruction.ofTokens 0 "" (Text.tokens comments s)).bind f := by
  induction lines generalizing number with
  | nil => rfl
  | cons s lines ih =>
    rw [List.filterMap_cons, ← ih (number + 1)]
    cases tokens : Text.tokens comments s with
    | nil => simp [parseLines, Instruction.parse_eq, tokens, Instruction.ofTokens]
    | cons opcode operands =>
      simp only [parseLines, Instruction.parse_eq, tokens, Instruction.ofTokens,
        List.filterMap_cons, placeless opcode operands number, Option.bind_some]

def Program.lineSignature? (comments : Bool) (s : String) : Option (String × List String) :=
  (Instruction.ofTokens 0 "" (Text.tokens comments s)).map Instruction.signature

theorem Program.signatures_eq (comments : Bool) (source : String) :
    signatures comments source = (Text.lines source).filterMap (lineSignature? comments) := by
  rw [signatures, ← List.filterMap_eq_map, parse, filterMap_parseLines fun _ _ _ _ => rfl]
  congr 1
  funext s
  rw [lineSignature?, Option.map_eq_bind]

end RegisterMachine
