import RegisterMachine.Processor
import RegisterMachine.Proofs.Effect

/-! All the steps that an instruction can make, one rule for each verdict, and what a sequence of
steps leaves behind. -/
namespace RegisterMachine.Step

/-- The steps of an instruction on some registers. -/
inductive Taken (w : Width) (r : Registers) (i : Instruction) : Step → Prop
  | done {op : Opcode} {effect : Effect} (opcode : Opcode.ofName? i.opcode = some op)
      (due : Effect.Due w r op i.operands effect) : Taken w r i ⟨i, .done effect⟩
  | unknown (opcode : Opcode.ofName? i.opcode = none) : Taken w r i ⟨i, .unknownOpcode⟩
  | failed {op : Opcode} {fault : Fault} (opcode : Opcode.ofName? i.opcode = some op)
      (refused : Effect.Refused w r op i.operands fault) :
      Taken w r i ⟨i, .failed ⟨fault, i.line, i.text⟩⟩

def Stuck (w : Width) (r : Registers) (i : Instruction) (e : Numeral.Excess) : Prop :=
  ∃ op, Opcode.ofName? i.opcode = some op ∧ Effect.Stuck w r op i.operands e

theorem taken_of_take {w : Width} {r : Registers} {i : Instruction} {s : Step}
    (h : take w r i = .ok s) : Taken w r i s := by
  unfold take at h
  split at h
  next opcode =>
    cases h
    exact .unknown opcode
  next op opcode =>
    split at h
    next effect found =>
      cases h
      exact .done opcode (Effect.due_of_find found)
    next fault found =>
      cases h
      exact .failed opcode (Effect.refused_of_find found)
    · cases h

theorem take_of_taken {w : Width} {r : Registers} {i : Instruction} {s : Step}
    (h : Taken w r i s) : take w r i = .ok s := by
  cases h with
  | done opcode due => simp [take, opcode, Effect.find_of_due due]
  | unknown opcode => simp [take, opcode]
  | failed opcode refused =>
    simp [take, opcode, Effect.find_of_refused refused, LineFault.atLine]

theorem stuck_of_take {w : Width} {r : Registers} {i : Instruction} {e : Numeral.Excess}
    (h : take w r i = .error e) : Stuck w r i e := by
  unfold take at h
  split at h
  · cases h
  next op opcode =>
    split at h
    · cases h
    · cases h
    next found =>
      cases h
      exact ⟨op, opcode, Effect.stuck_of_find found⟩

theorem take_of_stuck {w : Width} {r : Registers} {i : Instruction} {e : Numeral.Excess}
    (h : Stuck w r i e) : take w r i = .error e := by
  obtain ⟨op, opcode, stuck⟩ := h
  simp [take, opcode, Effect.find_of_stuck stuck]

theorem taken_or_stuck (w : Width) (r : Registers) (i : Instruction) :
    (∃ s, Taken w r i s) ∨ ∃ e, Stuck w r i e := by
  cases h : take w r i with
  | ok s => exact .inl ⟨s, taken_of_take h⟩
  | error e => exact .inr ⟨e, stuck_of_take h⟩

theorem Taken.instruction_eq {w : Width} {r : Registers} {i : Instruction} {s : Step}
    (h : Taken w r i s) : s.instruction = i := by
  cases h <;> rfl

def applyAll (r : Registers) (steps : List Step) : Registers :=
  steps.foldl (fun r s => s.apply r) r

@[simp] theorem applyAll_cons (r : Registers) (s : Step) (steps : List Step) :
    applyAll r (s :: steps) = applyAll (s.apply r) steps := rfl

@[simp] theorem names_applyAll (r : Registers) (steps : List Step) :
    (applyAll r steps).names = r.names := by
  induction steps generalizing r with
  | nil => rfl
  | cons s steps ih => rw [applyAll_cons, ih, names_apply]

end Step

namespace Processor

def after (p : Processor) (steps : List Step) : Processor :=
  steps.foldl (fun p s => (p.write (Step.echo s.instruction)).commit s) p

@[simp] theorem after_nil (p : Processor) : p.after [] = p := rfl

@[simp] theorem after_cons (p : Processor) (s : Step) (steps : List Step) :
    p.after (s :: steps) = ((p.write (Step.echo s.instruction)).commit s).after steps := rfl

@[simp] theorem config_after (p : Processor) (steps : List Step) :
    (p.after steps).config = p.config := by
  induction steps generalizing p with
  | nil => rfl
  | cons s steps ih => exact ih _

@[simp] theorem registers_after (p : Processor) (steps : List Step) :
    (p.after steps).registers = Step.applyAll p.registers steps := by
  induction steps generalizing p with
  | nil => rfl
  | cons s steps ih => exact ih _

theorem trace_after (p : Processor) (steps : List Step) :
    (p.after steps).trace.toList = p.trace.toList ++ steps.flatMap Step.block := by
  induction steps generalizing p with
  | nil => simp
  | cons s steps ih =>
    rw [after_cons, ih]
    simp [commit, write, Step.block]

theorem perform_of_taken {p : Processor} {i : Instruction} {s : Step}
    (h : Step.Taken p.config.width p.registers i s) : p.perform i = (p.after [s], .ok s) := by
  simp [perform, write, Step.take_of_taken h, h.instruction_eq]

theorem perform_of_stuck {p : Processor} {i : Instruction} {e : Numeral.Excess}
    (h : Step.Stuck p.config.width p.registers i e) :
    p.perform i = (p.write (Step.echo i), .error e) := by
  simp [perform, write, Step.take_of_stuck h]

section
variable {p : Processor} {number : Int} {s : String}

theorem execute_of_blank (parse : Instruction.parse p.config.comments number s = none) :
    p.execute s number = (p, .ok none) := by
  simp only [execute, parse]

variable {i : Instruction} (parse : Instruction.parse p.config.comments number s = some i)
include parse

theorem execute_of_taken {step : Step} (taken : Step.Taken p.config.width p.registers i step) :
    p.execute s number = (p.after [step], .ok (some step)) := by
  simp only [execute, parse, perform_of_taken taken, Except.map]

theorem execute_of_stuck {e : Numeral.Excess} (stuck : Step.Stuck p.config.width p.registers i e) :
    p.execute s number = (p.write (Step.echo i), .error e) := by
  simp only [execute, parse, perform_of_stuck stuck, Except.map]

omit parse in
theorem cases_of_execute {q : Processor} {step? : Option Step}
    (h : p.execute s number = (q, .ok step?)) :
    (step? = none ∧ q = p) ∨ ∃ i step, step? = some step ∧
      Instruction.parse p.config.comments number s = some i ∧
      Step.Taken p.config.width p.registers i step ∧ q = p.after [step] := by
  cases parse : Instruction.parse p.config.comments number s with
  | none =>
    rw [execute_of_blank parse] at h
    cases h
    exact .inl ⟨rfl, rfl⟩
  | some i =>
    rcases Step.taken_or_stuck p.config.width p.registers i with ⟨step, taken⟩ | ⟨e, stuck⟩
    · rw [execute_of_taken parse taken] at h
      cases h
      exact .inr ⟨i, step, rfl, rfl, taken, rfl⟩
    · rw [execute_of_stuck parse stuck] at h
      cases h

end

end RegisterMachine.Processor
