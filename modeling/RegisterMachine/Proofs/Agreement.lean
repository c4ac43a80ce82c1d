import RegisterMachine.Proofs.Run

/-! Trace and report agree. The trace, the steps, the failures and the status are put together one
by one while a run lasts; here each of them is read off the others. -/
namespace RegisterMachine

theorem Instruction.line_of_parse {comments : Bool} {line : Int} {s : String} {i : Instruction}
    (h : parse comments line s = some i) : i.line = line := by
  unfold parse at h
  simp only at h
  split at h
  · cases h
  · cases h
    rfl

theorem LineFault.message_of_line_ne {f : LineFault} (h : f.line ≠ 0) :
    f.message = "Line " ++ Numeral.text f.line ++ ": " ++ f.reason := if_neg h

namespace Step

theorem failed_eq_false_iff (s : Step) : s.failed = false ↔ s.failure? = none := by
  rw [failed, Option.isSome_eq_false_iff, Option.isNone_iff_eq_none]

theorem exists_failure {s : Step} (h : s.failed = true) : ∃ f, s.failure? = some f :=
  Option.isSome_iff_exists.mp h

theorem failures_eq_nil_iff {steps : List Step} :
    steps.filterMap failure? = [] ↔ ∀ s ∈ steps, s.failed = false := by
  simp only [List.filterMap_eq_nil_iff, failed_eq_false_iff]

theorem report_of_failure {s : Step} {f : LineFault} (h : s.failure? = some f) (hf : f.line ≠ 0) :
    s.report = "Error on line " ++ Numeral.text f.line ++ ": " ++ f.reason := by
  obtain ⟨i, verdict⟩ := s
  cases verdict with
  | done effect => cases h
  | unknownOpcode => cases h
  | failed failure =>
    cases h
    have place : place f.line = " on line " ++ Numeral.text f.line := if_neg hf
    have start : "Error" ++ " on line " = "Error on line " := by decide
    simp only [report, place, ← start, String.append_assoc]

theorem Taken.placed {w : Width} {r : Registers} {i : Instruction} {s : Step} (h : Taken w r i s)
    {f : LineFault} (hf : s.failure? = some f) : f.line = s.line ∧ f.text = s.instruction.text := by
  cases h with
  | done opcode due => cases hf
  | unknown opcode => cases hf
  | failed opcode refused =>
    cases hf
    exact ⟨rfl, rfl⟩

end Step

section
variable {c : Config} {r : Registers} {number : Int} {lines : List String} {steps : List Step}
  {ending : Ending}

theorem Walk.line_pos (h : Walk c r number lines steps ending) (pos : 0 < number) :
    ∀ s ∈ steps, 0 < s.line := by
  apply h.forall_steps (P := fun s => 0 < s.line)
  intro r line text i step after parse taken
  rw [Step.line, taken.instruction_eq, Instruction.line_of_parse parse]
  omega

theorem Walk.placed (h : Walk c r number lines steps ending) :
    ∀ s ∈ steps, ∀ f, s.failure? = some f → f.line = s.line ∧ f.text = s.instruction.text := by
  apply h.forall_steps (P := fun s => ∀ f, s.failure? = some f →
    f.line = s.line ∧ f.text = s.instruction.text)
  intro r line text i step after parse taken f hf
  exact taken.placed hf

/-- A finished walk is complete, and then nothing failed that it should have stopped at, or it was
stopped at its last step, the only one that failed. -/
theorem Walk.completed_or_aborted (h : Walk c r number lines steps ending) {status : Status}
    (finished : ending = .finished status) :
    (status = .completed ∧ (c.policy = .abort → ∀ s ∈ steps, s.failed = false)) ∨
      ∃ init last, steps = init ++ [last] ∧ c.policy = .abort ∧ last.failed = true ∧
        (∀ s ∈ init, s.failed = false) ∧ status = .aborted last.line := by
  induction h with
  | done =>
    cases finished
    exact .inl ⟨rfl, by simp⟩
  | blank parse rest ih => exact ih finished
  | @step r number s lines i step steps ending parse taken goesOn rest ih =>
    have succeeds : c.policy = .abort → step.failed = false :=
      fun policy => Bool.eq_false_iff.mpr fun failed => goesOn ⟨failed, policy⟩
    rcases ih finished with ⟨completed, none_failed⟩ |
      ⟨init, last, rfl, policy, failed, others, status⟩
    · refine .inl ⟨completed, fun policy => ?_⟩
      exact List.forall_mem_cons.mpr ⟨succeeds policy, none_failed policy⟩
    · refine .inr ⟨step :: init, last, rfl, policy, failed, ?_, status⟩
      exact List.forall_mem_cons.mpr ⟨succeeds policy, others⟩
  | @abort r number s lines i step parse taken failed policy =>
    cases finished
    have line : step.line = number := by
      rw [Step.line, taken.instruction_eq, Instruction.line_of_parse parse]
    exact .inr ⟨[], step, rfl, policy, failed, by simp, by rw [line]⟩
  | broken => cases finished

end

/-- What the parts of a report say about each other when a failing line is treated so. -/
structure Report.Agrees (policy : Policy) (r : Report) : Prop where
  /-- The banner, one block for every step, and the status. -/
  lines : r.lines = "VM reset. Enter new instructions." ::
    r.steps.flatMap (fun s => ["Executing: " ++ s.instruction.text, s.report, ""]) ++
      [r.status.text]
  length : r.lines.length = 2 + 3 * r.steps.length
  failures : r.failures = r.steps.filterMap Step.failure?
  /-- A failure names the line it happened on, and so does its block. -/
  placed : ∀ s ∈ r.steps, ∀ f, s.failure? = some f →
    f.line = s.line ∧ f.text = s.instruction.text ∧
    f.message = "Line " ++ Numeral.text s.line ++ ": " ++ f.reason ∧
    s.report = "Error on line " ++ Numeral.text s.line ++ ": " ++ f.reason
  aborted : r.aborted = true ↔ policy = .abort ∧ r.failures ≠ []
  /-- An aborted run has one failure, that of its last step. -/
  stopped : r.aborted = true → ∃ init last f, r.steps = init ++ [last] ∧ last.failure? = some f ∧
    r.failures = [f] ∧
    r.status.text = "Execution aborted on line " ++ Numeral.text f.line ++ "."
  completed : r.aborted = false → r.status.text = "Execution completed."
  ok : r.ok = true ↔ ∀ s ∈ r.steps, s.failed = false
  last : r.lines.getLast? = some r.status.text

section
variable {m : Machine} {source : String} {steps : List Step} {status : Status}
  (walks : m.Walks source steps (.finished status))
include walks

theorem Machine.Walks.placed : ∀ s ∈ steps, ∀ f, s.failure? = some f →
    f.line = s.line ∧ f.text = s.instruction.text ∧
    f.message = "Line " ++ Numeral.text s.line ++ ": " ++ f.reason ∧
    s.report = "Error on line " ++ Numeral.text s.line ++ ": " ++ f.reason := by
  intro s hs f hf
  obtain ⟨line, text⟩ := Walk.placed walks s hs f hf
  have pos : 0 < s.line := Walk.line_pos walks Int.one_pos s hs
  have ne : f.line ≠ 0 := by omega
  have message := LineFault.message_of_line_ne ne
  have report := Step.report_of_failure hf ne
  rw [line] at message report
  exact ⟨line, text, message, report⟩

theorem Machine.Walks.isAborted_iff : status.isAborted = true ↔
    m.config.policy = .abort ∧ steps.filterMap Step.failure? ≠ [] := by
  rcases Walk.completed_or_aborted walks rfl with ⟨rfl, none_failed⟩ |
    ⟨init, last, rfl, policy, failed, others, rfl⟩
  · constructor
    · intro aborted
      cases aborted
    · rintro ⟨policy, ne⟩
      exact absurd (Step.failures_eq_nil_iff.mpr (none_failed policy)) ne
  · refine ⟨fun _ => ⟨policy, fun nil => ?_⟩, fun _ => rfl⟩
    have succeeds := Step.failures_eq_nil_iff.mp nil last (by simp)
    rw [failed] at succeeds
    cases succeeds

theorem Machine.Walks.agrees :
    (Report.ofSteps m.registers.reset steps status).Agrees m.config.policy where
  lines := rfl
  length := by
    simp only [Report.ofSteps, List.length_cons, List.length_append, List.length_nil,
      Step.length_blocks]
    omega
  failures := rfl
  placed := placed walks
  aborted := isAborted_iff walks
  stopped := by
    intro aborted
    rcases Walk.completed_or_aborted walks rfl with ⟨rfl, _⟩ |
      ⟨init, last, rfl, policy, failed, others, rfl⟩
    · cases aborted
    · obtain ⟨f, hf⟩ := Step.exists_failure failed
      have line : f.line = last.line := (Walk.placed walks last (by simp) f hf).1
      refine ⟨init, last, f, rfl, hf, ?_, ?_⟩
      · simp only [Report.ofSteps, List.filterMap_append, Step.failures_eq_nil_iff.mpr others,
          List.nil_append, List.filterMap_cons, hf, List.filterMap_nil]
      · rw [line]
        rfl
  completed := by
    intro aborted
    rcases Walk.completed_or_aborted walks rfl with ⟨rfl, _⟩ | ⟨init, last, rfl, _, _, _, rfl⟩
    · rfl
    · cases aborted
  ok := by
    have aborts := isAborted_iff walks
    rw [← Step.failures_eq_nil_iff, Report.ok, Bool.and_eq_true, List.isEmpty_iff]
    constructor
    · exact fun h => h.1
    · intro nil
      refine ⟨nil, ?_⟩
      rw [Bool.not_eq_true', ← Bool.not_eq_true]
      exact fun aborted => (aborts.mp aborted).2 nil
  last := List.getLast?_concat

end

/-- A run that gives a report leaves its machine with the status and the registers of the report,
and the parts of the report agree. -/
theorem Machine.trace_and_report_agree (m : Machine) (source : String) (report : Report)
    (h : (m.run source).2 = .ok report) :
    report.Agrees m.config.policy ∧ (m.run source).1.status = report.status ∧
      (m.run source).1.registers = report.registers := by
  obtain ⟨steps, status, idle, walks, rfl⟩ := walks_of_report h
  exact ⟨walks.agrees, status_run idle walks, registers_run idle walks⟩

theorem Machine.abort_agrees :
    ∃ report, ((Machine.ofConfig { Config.default with policy := .abort }).run
        "LOAD R1 5\n; five\nADD R1 R9\nPRINT R1").2 = .ok report ∧
      report.Agrees .abort := by
  have ran : ((Machine.ofConfig { Config.default with policy := .abort }).run
      "LOAD R1 5\n; five\nADD R1 R9\nPRINT R1").2.toOption.isSome = true := by decide +kernel
  cases h : ((Machine.ofConfig { Config.default with policy := .abort }).run
      "LOAD R1 5\n; five\nADD R1 R9\nPRINT R1").2 with
  | error e =>
    rw [h] at ran
    cases ran
  | ok report => exact ⟨report, rfl, (trace_and_report_agree _ _ report h).1⟩

end RegisterMachine
