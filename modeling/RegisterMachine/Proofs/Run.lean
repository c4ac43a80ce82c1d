import RegisterMachine.Proofs.Walk

/-! What a run comes to, read off the walk over its lines: a report if the walk is finished, an
excess if it is broken, and in both cases the registers after the steps that were taken. -/
namespace RegisterMachine

def Config.withWidth (c : Config) (width : Width) : Config := { c with width }

def Status.isAborted : Status → Bool
  | aborted _ => true
  | _ => false

/-- What a report says, read off the steps and the status alone. -/
def Report.ofSteps (r : Registers) (steps : List Step) (status : Status) : Report where
  lines := Machine.banner :: steps.flatMap Step.block ++ [status.text]
  registers := Step.applyAll r steps
  steps := steps
  failures := steps.filterMap Step.failure?
  aborted := status.isAborted
  status := status

theorem Step.getElem?_blocks (steps : List Step) (k : Nat) :
    (steps.flatMap block)[3 * k + 1]? = steps[k]?.map report := by
  induction steps generalizing k with
  | nil => simp
  | cons s steps ih =>
    cases k with
    | zero => rfl
    | succ k =>
      rw [List.flatMap_cons, List.getElem?_append_right (by rw [length_block]; omega), length_block,
        show 3 * (k + 1) + 1 - 3 = 3 * k + 1 by omega, ih, List.getElem?_cons_succ]

theorem Step.length_blocks (steps : List Step) :
    (steps.flatMap block).length = 3 * steps.length := by
  induction steps with
  | nil => rfl
  | cons s steps ih =>
    rw [List.flatMap_cons, List.length_append, length_block, ih, List.length_cons]
    omega

theorem Report.getElem?_lines_ofSteps {r : Registers} {steps : List Step} {status : Status}
    {k : Nat} {s : Step} (at_k : steps[k]? = some s) :
    (ofSteps r steps status).lines[3 * k + 2]? = some s.report := by
  have short : k < steps.length := (List.getElem?_eq_some_iff.mp at_k).1
  have inside : 3 * k + 1 < (steps.flatMap Step.block).length := by
    rw [Step.length_blocks]
    omega
  rw [ofSteps, List.cons_append, List.getElem?_cons_succ, List.getElem?_append_left inside,
    Step.getElem?_blocks, at_k]
  rfl

theorem exists_ok_of_map {ε α β : Type} {x : Except ε α} {f : α → β} {b : β}
    (h : x.toOption.map f = some b) : ∃ a, x = .ok a ∧ f a = b := by
  cases x with
  | error e => cases h
  | ok a => exact ⟨a, rfl, Option.some.inj h⟩

namespace Machine

/-- The walk that a run makes: over all lines of its source, from zeroed registers. -/
def Walks (m : Machine) (source : String) (steps : List Step) (ending : Ending) : Prop :=
  Walk m.config m.registers.reset 1 (Text.lines source) steps ending

theorem exists_walks (m : Machine) (source : String) :
    ∃ steps ending, m.Walks source steps ending :=
  Walk.exists_walk _ _ _ _

@[simp] theorem config_reset (m : Machine) : m.reset.config = m.config := rfl

@[simp] theorem registers_reset (m : Machine) : m.reset.registers = m.registers.reset := rfl

theorem run_of_idle {m : Machine} (idle : m.running = false) (source : String) :
    m.run source = { m.reset with running := true }.proceed source := by
  simp [run, begin, idle]

theorem run_of_running {m : Machine} (busy : m.running = true) (source : String) :
    m.run source = (m, .error .busy) := by
  simp [run, begin_busy busy]

section
variable {m : Machine} {source : String} {steps : List Step}

theorem runLines_of_walks {ending : Ending} (h : m.Walks source steps ending) :
    m.reset.toProcessor.runLines {} 1 (Text.lines source) =
      (ending.leave (m.reset.toProcessor.after steps), ending.mark (Tally.addAll {} steps),
        ending.result) :=
  Walk.runLines_eq h

theorem report_of_walks (idle : m.running = false) {status : Status}
    (h : m.Walks source steps (.finished status)) :
    (m.run source).2 = .ok (Report.ofSteps m.registers.reset steps status) := by
  simp only [run_of_idle idle, proceed, runLines_of_walks h, Ending.result, finish]
  congr 1
  have steps_eq : (Tally.addAll {} steps).steps.toList = steps := Tally.steps_addAll {} steps
  have failures_eq : (Tally.addAll {} steps).failures.toList = steps.filterMap Step.failure? :=
    Tally.failures_addAll {} steps
  have trace_eq : (m.reset.toProcessor.after steps).trace.toList =
      banner :: steps.flatMap Step.block := Processor.trace_after _ _
  cases status <;>
    simp [Report.ofSteps, Ending.leave, Ending.mark, Status.isAborted, steps_eq, failures_eq,
      trace_eq]

theorem excess_of_walks (idle : m.running = false) {i : Instruction} {e : Numeral.Excess}
    (h : m.Walks source steps (.broken i e)) : (m.run source).2 = .error (.excess e) := by
  simp [run_of_idle idle, proceed, runLines_of_walks h, Ending.result]

theorem registers_run (idle : m.running = false) {ending : Ending}
    (h : m.Walks source steps ending) :
    (m.run source).1.registers = Step.applyAll m.registers.reset steps := by
  simp only [run_of_idle idle, proceed, runLines_of_walks h]
  cases ending <;> simp [Ending.result, Ending.leave, finish, Processor.write]

theorem status_run (idle : m.running = false) {status : Status}
    (h : m.Walks source steps (.finished status)) : (m.run source).1.status = status := by
  simp [run_of_idle idle, proceed, runLines_of_walks h, Ending.result, finish]

theorem walks_of_report {report : Report} (h : (m.run source).2 = .ok report) :
    ∃ steps status, m.running = false ∧ m.Walks source steps (.finished status) ∧
      report = Report.ofSteps m.registers.reset steps status := by
  cases idle : m.running with
  | true => simp [run_of_running idle] at h
  | false =>
    obtain ⟨steps, ending, walks⟩ := m.exists_walks source
    cases ending with
    | finished status =>
      rw [report_of_walks idle walks] at h
      exact ⟨steps, status, rfl, walks, (Except.ok.inj h).symm⟩
    | broken i e =>
      rw [excess_of_walks idle walks] at h
      cases h

end

@[simp] theorem config_run (m : Machine) (source : String) :
    (m.run source).1.config = m.config := by
  cases idle : m.running with
  | true => simp [run_of_running idle]
  | false =>
    obtain ⟨steps, ending, walks⟩ := m.exists_walks source
    simp only [run_of_idle idle, proceed, runLines_of_walks walks]
    cases ending <;> simp [Ending.result, Ending.leave, finish, Processor.write]

@[simp] theorem running_run (m : Machine) (source : String) :
    (m.run source).1.running = m.running := by
  cases idle : m.running with
  | true => simp [run_of_running idle, idle]
  | false => simp [run_of_idle idle]

end RegisterMachine.Machine
