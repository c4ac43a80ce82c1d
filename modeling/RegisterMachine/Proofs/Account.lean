import Mathlib.Data.List.Basic
import RegisterMachine.Proofs.Agreement
import RegisterMachine.Proofs.Lockstep

/-! The account of a run. The machine opens and closes what a run says in the journal, and the
processor says something only of some steps and in other branches than those that make the report;
here all that was said is read off the report. -/
namespace RegisterMachine

def Step.remarkable (s : Step) : Bool :=
  s.outcome = .unknownOpcode ∨ s.outcome = .done ∧ s.instruction.extra ≠ []

def Step.remark (s : Step) : Record where
  level := .debug
  channel := .processor
  place :=
    if s.outcome = .unknownOpcode then "execute_instruction:128" else "execute_instruction:142"
  message := "line " ++ Numeral.text s.line ++
    if s.outcome = .unknownOpcode then ": unknown opcode " ++ Text.quoted s.instruction.opcode
    else ": ignoring extra operands " ++ " ".intercalate s.instruction.extra

def LineFault.warning (f : LineFault) : Record where
  level := .warning
  channel := .processor
  place := "execute_instruction:138"
  message := f.text ++ ": Line " ++ Numeral.text f.line ++ ": " ++ f.reason

def Report.summary (r : Report) : String :=
  "run finished: " ++ r.steps.length.repr ++ " instructions, " ++ r.failures.length.repr ++
    " errors" ++ if r.aborted then " (aborted)" else ""

/-- The records of the processor account for the report of a run. -/
structure Report.AccountedBy (r : Report) (records : List Record) : Prop where
  processor : ∀ record ∈ records, record.channel = .processor ∧
    (record.level = .warning ∨ record.level = .debug)
  warnings : records.filter (·.level = .warning) = r.failures.map LineFault.warning
  /-- The failures are those of the steps that failed, each with the line and text of its step. -/
  failures : r.failures.map (fun f => (f.line, f.text)) =
    (r.steps.filter Step.failed).map fun s => (s.line, s.instruction.text)
  remarks : records.filter (·.level = .debug) = (r.steps.filter Step.remarkable).map Step.remark

namespace Step

theorem record?_warning (s : Step) : s.record?.filter (·.level = .warning) =
    s.failure?.map fun f => ⟨.warning, .processor, "execute_instruction:138",
      s.instruction.text ++ ": " ++ f.message⟩ := by
  obtain ⟨i, verdict⟩ := s
  cases verdict with
  | done effect => by_cases none_left : i.extra = [] <;> simp [record?, failure?, none_left]
  | unknownOpcode => simp [record?, failure?]
  | failed failure => simp [record?, failure?]

theorem record?_debug (s : Step) : s.record?.filter (·.level = .debug) =
    (Option.guard remarkable s).map remark := by
  obtain ⟨i, verdict⟩ := s
  cases verdict with
  | done effect =>
    by_cases none_left : i.extra = [] <;>
      simp [record?, Option.guard, remarkable, remark, outcome, none_left, line, String.append_assoc]
  | unknownOpcode =>
    simp [record?, Option.guard, remarkable, remark, outcome, line, String.append_assoc]
  | failed failure => simp [record?, Option.guard, remarkable, outcome]

theorem record?_processor {s : Step} {record : Record} (h : s.record? = some record) :
    record.channel = .processor ∧ (record.level = .warning ∨ record.level = .debug) := by
  unfold record? at h
  split at h
  · split at h
    · cases h
    · cases h
      exact ⟨rfl, .inr rfl⟩
  · cases h
    exact ⟨rfl, .inr rfl⟩
  · cases h
    exact ⟨rfl, .inl rfl⟩

end Step

theorem Processor.journal_after (p : Processor) (steps : List Step) :
    (p.after steps).journal.toList = p.journal.toList ++ steps.filterMap Step.record? := by
  induction steps generalizing p with
  | nil => simp
  | cons s steps ih =>
    rw [after_cons, ih]
    cases said : s.record? <;> simp [commit, write, said]

theorem filterMap_eq_map_filter {α β : Type} {f : α → Option β} {p : α → Bool} {g : α → β}
    {l : List α} (h : ∀ x ∈ l, f x = (Option.guard p x).map g) :
    l.filterMap f = (l.filter p).map g := by
  rw [List.filterMap_congr h, ← List.map_filterMap, List.filterMap_eq_filter]

namespace Machine
variable {m : Machine} {source : String} {steps : List Step} {status : Status}

theorem journal_finish (m : Machine) (t : Tally) (status : Status) :
    (m.finish t status).1.journal.toList =
      m.journal.toList ++ [⟨.info, .machine, "run:118", (m.finish t status).2.summary⟩] := by
  unfold finish Report.summary
  simp only [Array.toList_push, Array.length_toList]

theorem run_of_finished (idle : m.running = false)
    (walks : m.Walks source steps (.finished status)) :
    ∃ (last : Machine) (t : Tally), last.toProcessor = m.reset.toProcessor.after steps ∧
      m.run source = ((last.finish t status).1, .ok (last.finish t status).2) := by
  refine ⟨{ m.reset with running := true, toProcessor := m.reset.toProcessor.after steps },
    (Ending.finished status).mark (Tally.addAll {} steps), rfl, ?_⟩
  simp only [run_of_idle idle, proceed, runLines_of_walks walks, Ending.result, Ending.leave]

/-- What a finished run says: that the machine was reset, what there is to say of the steps, and
what it came to. -/
theorem journal_run (idle : m.running = false) (walks : m.Walks source steps (.finished status)) :
    (m.run source).1.journal.toList = m.journal.toList ++
      ⟨.debug, .machine, "reset:89", "VM reset (" ++ ", ".intercalate m.registers.names ++ ")"⟩ ::
        steps.filterMap Step.record? ++
      [⟨.info, .machine, "run:118", (Report.ofSteps m.registers.reset steps status).summary⟩] := by
  obtain ⟨last, t, after, ran⟩ := run_of_finished idle walks
  have report := report_of_walks idle walks
  rw [ran] at report ⊢
  rw [journal_finish, Except.ok.inj report, after, Processor.journal_after]
  simp only [reset, Array.toList_push, List.append_assoc, List.cons_append, List.nil_append]

theorem Walks.record?_of_failure (walks : m.Walks source steps (.finished status)) {s : Step}
    (hs : s ∈ steps) {f : LineFault} (hf : s.failure? = some f) : s.record? = some f.warning := by
  obtain ⟨line, text, message, -⟩ := placed walks s hs f hf
  have warning := s.record?_warning
  rw [hf] at warning
  obtain ⟨said, -⟩ := Option.filter_eq_some_iff.mp warning
  have start : ": " ++ "Line " = ": Line " := by decide
  simp only [said, LineFault.warning, line, text, message, ← start, String.append_assoc]

theorem Walks.accounted (walks : m.Walks source steps (.finished status)) :
    (Report.ofSteps m.registers.reset steps status).AccountedBy
      (steps.filterMap Step.record?) where
  processor := by
    intro record said
    obtain ⟨s, -, said⟩ := List.mem_filterMap.mp said
    exact Step.record?_processor said
  warnings := by
    rw [List.filter_filterMap, Report.ofSteps, List.map_filterMap]
    refine List.filterMap_congr fun s hs => ?_
    cases hf : s.failure? with
    | none => rw [Step.record?_warning, hf, Option.map_none, Option.map_none]
    | some f =>
      rw [walks.record?_of_failure hs hf]
      rfl
  failures := by
    rw [Report.ofSteps, List.map_filterMap]
    refine filterMap_eq_map_filter fun s hs => ?_
    cases hf : s.failure? with
    | none => simp [Option.guard, Step.failed, hf]
    | some f =>
      obtain ⟨line, text, -⟩ := placed walks s hs f hf
      simp [Option.guard, Step.failed, hf, line, text]
  remarks := by
    rw [List.filter_filterMap]
    exact filterMap_eq_map_filter fun s _ => s.record?_debug

end Machine

theorem Report.summary_ends_iff (r : Report) :
    " (aborted)".toList <:+ r.summary.toList ↔ r.aborted = true := by
  unfold summary
  cases r.aborted with
  | true => simp only [String.toList_append, ↓reduceIte, List.suffix_append]
  | false =>
    refine iff_of_false (fun ends => ?_) nofun
    -- The other way to end is the shorter one, so it would have to be an end of this one.
    have errors : " errors".toList <:+ " (aborted)".toList := by
      refine List.suffix_of_suffix_length_le ?_ ends (by decide)
      simp only [String.toList_append, Bool.false_eq_true, ↓reduceIte, String.toList_empty,
        List.append_nil, List.suffix_append]
    exact absurd errors (by decide)

/-- A run that gives a report adds to the journal the reset, the records of the processor that
account for the report, and a summary of the report that tells whether it was aborted. -/
theorem Machine.journal_accounts_for_run (m : Machine) (source : String) (report : Report)
    (h : (m.run source).2 = .ok report) :
    ∃ records, (m.run source).1.journal.toList = m.journal.toList ++
        ⟨.debug, .machine, "reset:89", "VM reset (" ++ ", ".intercalate m.registers.names ++ ")"⟩ ::
          records ++ [⟨.info, .machine, "run:118", report.summary⟩] ∧
      report.AccountedBy records ∧
      (" (aborted)".toList <:+ report.summary.toList ↔ report.aborted = true) := by
  obtain ⟨steps, status, idle, walks, rfl⟩ := walks_of_report h
  exact ⟨_, journal_run idle walks, walks.accounted, Report.summary_ends_iff _⟩

/-- An unknown opcode with operands, a blank line, operands too many on a line that is done and on
one that fails, and a line that is never come to. -/
def Program.mishap : String := "JUMP R1 R2 R3\n\nLOAD R1 5 6 7\nADD R1 R9 R3\nMOVE"

theorem Machine.journal_accounts_for_mishap :
    ∃ report records,
      ((ofConfig { Config.default with policy := .abort }).run Program.mishap).2 = .ok report ∧
      ((ofConfig { Config.default with policy := .abort }).run Program.mishap).1.journal.toList =
        ⟨.debug, .machine, "reset:89", "VM reset (R1, R2, R3)"⟩ :: records ++
          [⟨.info, .machine, "run:118", "run finished: 3 instructions, 1 errors (aborted)"⟩] ∧
      report.AccountedBy records ∧ report.aborted = true ∧ records.length = 3 := by
  obtain ⟨ran, length, last⟩ : ((ofConfig { Config.default with policy := .abort }).run
        Program.mishap).2.toOption.isSome = true ∧
      ((ofConfig { Config.default with policy := .abort }).run
        Program.mishap).1.journal.toList.length = 5 ∧
      ((ofConfig { Config.default with policy := .abort }).run
        Program.mishap).1.journal.toList.getLast? =
          some ⟨.info, .machine, "run:118", "run finished: 3 instructions, 1 errors (aborted)"⟩ := by
    decide +kernel
  cases h : ((ofConfig { Config.default with policy := .abort }).run Program.mishap).2 with
  | error e =>
    rw [h] at ran
    cases ran
  | ok report =>
    obtain ⟨records, journal, accounted, ends⟩ := journal_accounts_for_run _ _ report h
    rw [journal, List.getLast?_concat, Option.some.injEq, Record.mk.injEq] at last
    rw [last.2.2.2] at journal ends
    rw [journal] at length
    exact ⟨report, records, rfl, journal, accounted, ends.mp (by decide),
      by simpa [ofConfig, Processor.ofConfig] using length⟩

end RegisterMachine
