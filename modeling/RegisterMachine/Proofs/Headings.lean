import RegisterMachine.Proofs.Lockstep
import RegisterMachine.Proofs.OneLine

/-! Headings. The report of a step begins with words that say what became of it. No two of them are
alike, and neither the echo of a line nor the first or the last line of a trace begins with any, so
whatever a program holds, the lines under a heading are as many as the steps that it is of. -/
namespace RegisterMachine

def Text.begins (start line : String) : Bool := start.toList.isPrefixOf line.toList

/-- What became of a step, as the first words of its report tell it. -/
inductive Heading where
  | done (op : Opcode)
  | unknownOpcode
  | failed
  deriving DecidableEq, Repr

namespace Heading

def text : Heading → String
  | done .load => "Loaded value "
  | done .add => "Added value from "
  | done .print => "Value in "
  | unknownOpcode => "Unknown instruction: "
  | failed => "Error on line "

theorem begins_append (h other : Heading) (rest : String) :
    Text.begins h.text (other.text ++ rest) = decide (h = other) := by
  rw [Text.begins, String.toList_append]
  rcases h with ⟨_ | _ | _⟩ | _ | _ <;> rcases other with ⟨_ | _ | _⟩ | _ | _ <;> rfl

theorem begins_echo (h : Heading) (i : Instruction) : Text.begins h.text (Step.echo i) = false := by
  rw [Text.begins, Step.echo, String.toList_append]
  rcases h with ⟨_ | _ | _⟩ | _ | _ <;> rfl

theorem begins_banner (h : Heading) : Text.begins h.text Machine.banner = false := by
  rcases h with ⟨_ | _ | _⟩ | _ | _ <;> rfl

theorem begins_empty (h : Heading) : Text.begins h.text "" = false := by
  rcases h with ⟨_ | _ | _⟩ | _ | _ <;> rfl

theorem begins_status (h : Heading) (status : Status) : Text.begins h.text status.text = false := by
  cases status with
  | idle | ready | completed => rcases h with ⟨_ | _ | _⟩ | _ | _ <;> rfl
  | aborted line =>
    have split : (Status.aborted line).text =
        "Execution aborted on line " ++ (Numeral.text line ++ ".") := String.append_assoc
    rw [Text.begins, split, String.toList_append]
    rcases h with ⟨_ | _ | _⟩ | _ | _ <;> rfl

end Heading

def Effect.opcode : Effect → Opcode
  | load _ _ _ => .load
  | add _ _ _ => .add
  | print _ _ => .print

theorem Effect.Due.opcode_eq {w : Width} {r : Registers} {op : Opcode} {operands : List String}
    {e : Effect} (h : Due w r op operands e) : e.opcode = op := by
  cases h <;> rfl

namespace Step

def heading (s : Step) : Heading :=
  match s.verdict with
  | .done effect => .done effect.opcode
  | .unknownOpcode => .unknownOpcode
  | .failed _ => .failed

def OnLine (s : Step) : Prop := ∀ f, s.failure? = some f → f.line ≠ 0

theorem exists_report (s : Step) (onLine : s.OnLine) :
    ∃ rest, s.report = s.heading.text ++ rest := by
  obtain ⟨i, verdict⟩ := s
  cases verdict with
  | done effect =>
    cases effect with
    | load target token value =>
      refine ⟨token ++ (" into " ++ target), ?_⟩
      rw [← String.append_assoc, ← String.append_assoc]
      rfl
    | add target source total =>
      refine ⟨source ++ (" to " ++ target), ?_⟩
      rw [← String.append_assoc, ← String.append_assoc]
      rfl
    | print source value =>
      refine ⟨source ++ (": " ++ Numeral.text value), ?_⟩
      rw [← String.append_assoc, ← String.append_assoc]
      rfl
  | unknownOpcode => exact ⟨i.opcode, rfl⟩
  | failed f =>
    refine ⟨Numeral.text f.line ++ (": " ++ f.reason), ?_⟩
    rw [report_of_failure rfl (onLine f rfl), String.append_assoc, String.append_assoc]
    rfl

theorem begins_report (h : Heading) {s : Step} (onLine : s.OnLine) :
    Text.begins h.text s.report = decide (h = s.heading) := by
  obtain ⟨rest, split⟩ := s.exists_report onLine
  rw [split, Heading.begins_append]

theorem countP_block (h : Heading) {s : Step} (onLine : s.OnLine) :
    s.block.countP (Text.begins h.text) = if h = s.heading then 1 else 0 := by
  simp only [block, List.countP_cons, List.countP_nil, h.begins_echo, h.begins_empty,
    begins_report h onLine, decide_eq_true_eq, Bool.false_eq_true, ↓reduceIte, Nat.zero_add,
    Nat.add_zero]

theorem countP_blocks (h : Heading) {steps : List Step} (onLine : ∀ s ∈ steps, s.OnLine) :
    (steps.flatMap block).countP (Text.begins h.text) = steps.countP (h = ·.heading) := by
  induction steps with
  | nil => rfl
  | cons s steps ih =>
    obtain ⟨first, others⟩ := List.forall_mem_cons.mp onLine
    rw [List.flatMap_cons, List.countP_append, countP_block h first, ih others, List.countP_cons,
      Nat.add_comm]
    simp only [decide_eq_true_eq]

theorem heading_eq_failed (s : Step) : decide (Heading.failed = s.heading) = s.failure?.isSome := by
  obtain ⟨i, _ | _ | _⟩ := s <;> rfl

theorem heading_eq_unknown (s : Step) :
    decide (Heading.unknownOpcode = s.heading) = decide (s.verdict = .unknownOpcode) := by
  obtain ⟨i, verdict⟩ := s
  cases verdict <;> simp [heading]

theorem Taken.heading_eq_done {w : Width} {r : Registers} {i : Instruction} {s : Step}
    (h : Taken w r i s) (op : Opcode) :
    Heading.done op = s.heading ↔ s.outcome = .done ∧ s.instruction.opcode = op.name := by
  cases h with
  | @done named effect opcode due =>
    have same : op = named ↔ i.opcode = op.name := by
      constructor
      · rintro rfl
        exact (Opcode.name_of_ofName? opcode).symm
      · intro name
        rw [name, Opcode.ofName?_name] at opcode
        exact Option.some.inj opcode
    simp [heading, outcome, due.opcode_eq, same]
  | unknown opcode => simp [heading, outcome]
  | failed opcode refused => simp [heading, outcome]

end Step

namespace Report

def starting (r : Report) (start : String) : Nat := r.lines.countP (Text.begins start)

def doneBy (r : Report) (opcode : String) : Nat :=
  r.steps.countP fun s => s.outcome = .done ∧ s.instruction.opcode = opcode

theorem starting_ofSteps (h : Heading) (r : Registers) {steps : List Step} (status : Status)
    (onLine : ∀ s ∈ steps, s.OnLine) :
    (ofSteps r steps status).starting h.text = steps.countP (h = ·.heading) := by
  simp only [starting, ofSteps, List.countP_append, List.countP_cons, List.countP_nil,
    Step.countP_blocks h onLine, h.begins_banner, h.begins_status, Bool.false_eq_true, ↓reduceIte,
    Nat.add_zero]

/-- Nothing in a trace passes for what it is not: its lines can be told apart in its text, and the
lines that tell what became of a step are as many as the steps that it became of. -/
structure Unforged (r : Report) : Prop where
  lines : ∀ line ∈ r.lines, '\n' ∉ line.toList ∧ '\r' ∉ line.toList
  split : (r.text.toList.splitOn '\n').map String.ofList = r.lines
  failures : r.starting "Error on line " = r.failures.length
  unknown : r.starting "Unknown instruction: " = r.unknown.length
  loads : r.starting "Loaded value " = r.doneBy "LOAD"
  adds : r.starting "Added value from " = r.doneBy "ADD"
  prints : r.starting "Value in " = r.doneBy "PRINT"

end Report

theorem Machine.Walks.unforged {m : Machine} {source : String} {steps : List Step} {status : Status}
    (walks : m.Walks source steps (.finished status))
    (names : ∀ n ∈ m.registers.names, Text.Chars.IsWord n.toList) :
    (Report.ofSteps m.registers.reset steps status).Unforged := by
  have onLine : ∀ s ∈ steps, s.OnLine := by
    intro s hs f hf
    have line := (Walk.placed walks s hs f hf).1
    have pos := Walk.line_pos walks Int.one_pos s hs
    omega
  have starting (h : Heading) := Report.starting_ofSteps h m.registers.reset status onLine
  have done (op : Opcode) : (Report.ofSteps m.registers.reset steps status).starting
      (Heading.done op).text = (Report.ofSteps m.registers.reset steps status).doneBy op.name := by
    rw [starting]
    apply List.countP_congr
    intro s hs
    obtain ⟨_, r, _, taken⟩ := walks.exists_taken s hs
    simpa using taken.heading_eq_done op
  have isLine := walks.isLine names
  exact {
    lines := isLine
    split := Text.splitOn_unlines isLine (by simp [Report.ofSteps])
    failures := by
      refine (starting .failed).trans ?_
      simp only [Step.heading_eq_failed, Report.ofSteps, List.length_filterMap_eq_countP]
    unknown := by
      refine (starting .unknownOpcode).trans ?_
      simp only [Step.heading_eq_unknown, Report.unknown, Report.ofSteps,
        List.countP_eq_length_filter]
    loads := done .load
    adds := done .add
    prints := done .print }

/-- Whatever a program holds, nothing in the trace of its run passes for what it is not. -/
theorem Config.trace_is_unforged (config : Config) (source : String) (report : Report)
    (h : config.run source = .ok report) : report.Unforged := by
  obtain ⟨steps, status, _, walks, rfl⟩ := Machine.walks_of_report h
  apply walks.unforged
  intro name hname
  rw [Machine.names_ofConfig] at hname
  exact (isRegisterName_iff name).mp (config.names_valid name hname)

/-- Lines that look like reports, one of them cut off from a comment by a carriage return. -/
def forgedLines : String := "LOAD R1 5 ;\rLoaded value 5 into R1\nPRINT Error on line 3: none"

theorem Config.trace_of_forgedLines : ∃ report, Config.default.run forgedLines = .ok report ∧
    report.Unforged ∧ report.starting "Loaded value " = 1 ∧
    report.starting "Unknown instruction: " = 1 ∧ report.starting "Error on line " = 1 := by
  have counts : (Config.default.run forgedLines).toOption.map (fun r =>
      (r.doneBy "LOAD", r.unknown.length, r.failures.length)) = some (1, 1, 1) := by decide +kernel
  cases h : Config.default.run forgedLines with
  | error e =>
    rw [h] at counts
    cases counts
  | ok report =>
    rw [h] at counts
    have counts : (report.doneBy "LOAD", report.unknown.length, report.failures.length) =
        (1, 1, 1) := Option.some.inj counts
    have unforged := Config.trace_is_unforged _ _ report h
    refine ⟨report, rfl, unforged, ?_⟩
    rw [unforged.loads, unforged.unknown, unforged.failures]
    simpa using counts

end RegisterMachine
