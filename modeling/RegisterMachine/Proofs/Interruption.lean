import Mathlib.Logic.Relation
import RegisterMachine.Proofs.Run

/-! Runs in single changes. A run changes its machine one thing at a time, and what it does next
depends on the machine as it then is. At every point between two changes the machine is running, so
a run that is attempted there is refused and changes nothing, and the run under way comes to the end
that it has without the attempt. -/
namespace RegisterMachine

inductive Change where
  | zero
  | set (name : String) (value : Int)
  | clear
  | write (line : String)
  | turn (status : Status)
  | record (record : Record)

def Effect.changes : Effect → List Change
  | load target _ value => [.set target value]
  | add target _ total => [.set target total]
  | print _ _ => []

/-- What a step does once its line is echoed. The record of ignored operands comes before the empty
line of the block, all others after it. -/
def Step.changes (s : Step) : List Change :=
  let records := s.record?.toList.map Change.record
  match s.verdict with
  | .done effect => effect.changes ++ .write effect.report :: (records ++ [.write ""])
  | _ => .write s.report :: .write "" :: records

def Tally.summary (t : Tally) : Record :=
  ⟨.info, .machine, "run:118", "run finished: " ++ t.steps.size.repr ++ " instructions, " ++
    t.failures.size.repr ++ " errors" ++ (if t.aborted then " (aborted)" else "")⟩

def Tally.closing (t : Tally) (status : Status) : List Change :=
  [.turn status, .write status.text, .record t.summary]

namespace Machine

def change (m : Machine) : Change → Machine
  | .zero => { m with registers := m.registers.reset }
  | .set name value => { m with registers := m.registers.set name value }
  | .clear => { m with trace := .empty }
  | .write line => { m with trace := m.trace.write line }
  | .turn status => { m with status }
  | .record r => { m with journal := m.journal.push r }

def changeAll (m : Machine) (changes : List Change) : Machine := changes.foldl change m

def opening (m : Machine) : List Change :=
  [.zero, .clear, .write banner, .turn .ready, .record
    ⟨.debug, .machine, "reset:89", "VM reset (" ++ ", ".intercalate m.registers.names ++ ")"⟩]

def reportOf (m : Machine) (t : Tally) (status : Status) : Report where
  lines := m.trace.toList
  registers := m.registers
  steps := t.steps.toList
  failures := t.failures.toList
  aborted := t.aborted
  status := status

@[simp] theorem changeAll_nil (m : Machine) : m.changeAll [] = m := rfl

@[simp] theorem changeAll_cons (m : Machine) (c : Change) (changes : List Change) :
    m.changeAll (c :: changes) = (m.change c).changeAll changes := rfl

@[simp] theorem changeAll_append (m : Machine) (changes later : List Change) :
    m.changeAll (changes ++ later) = (m.changeAll changes).changeAll later :=
  List.foldl_append

@[simp] theorem running_change (m : Machine) (c : Change) : (m.change c).running = m.running := by
  cases c <;> rfl

theorem changeAll_changes (m : Machine) (s : Step) :
    m.changeAll s.changes = { m with toProcessor := m.toProcessor.commit s } := by
  obtain ⟨i, verdict⟩ := s
  cases verdict with
  | done effect =>
    have registers :
        m.changeAll effect.changes = { m with registers := effect.apply m.registers } := by
      cases effect <;> rfl
    simp only [Step.changes, changeAll_append, changeAll_cons, registers]
    cases record : Step.record? ⟨i, .done effect⟩ <;>
      simp [change, Processor.commit, Step.apply, Step.report, record]
  | unknownOpcode => rfl
  | failed f => rfl

end Machine

/-- What is left of a run: lines still to be read, an instruction whose line has been echoed, or
nothing but to give the report or the excess. -/
inductive Task where
  | lines (t : Tally) (number : Int) (lines : List String)
  | take (i : Instruction) (t : Tally) (number : Int) (lines : List String)
  | report (t : Tally) (status : Status)
  | lost (excess : Numeral.Excess)

/-- Where a run is: its machine, the changes that are due, and what is left after them. -/
structure Point where
  machine : Machine
  due : List Change
  task : Task

namespace Point

/-- The next point of a run. The changes that are due come first, one at a time; what there is to do
after them is found out from the machine that they leave. -/
def next? (p : Point) : Option Point :=
  match p.due, p.task with
  | change :: due, _ => some { p with machine := p.machine.change change, due }
  | [], .lines t _ [] => some { p with due := t.closing .completed, task := .report t .completed }
  | [], .lines t number (s :: lines) =>
    match Instruction.parse p.machine.config.comments number (Text.trim s) with
    | none => some { p with task := .lines t (number + 1) lines }
    | some i => some { p with due := [.write (Step.echo i)], task := .take i t number lines }
  | [], .take i t number lines =>
    match Step.take p.machine.config.width p.machine.registers i with
    | .error e => some { p with task := .lost e }
    | .ok step =>
      let t := t.add step
      if step.failed ∧ p.machine.config.policy = .abort then
        let t := { t with aborted := true }
        let status := .aborted number
        some { p with due := step.changes ++ t.closing status, task := .report t status }
      else some { p with due := step.changes, task := .lines t (number + 1) lines }
  | [], .report _ _ => none
  | [], .lost _ => none

def outcome? (p : Point) : Option (Machine × Except RunFailure Report) :=
  match p.due, p.task with
  | [], .report t status =>
    some ({ p.machine with running := false }, .ok (p.machine.reportOf t status))
  | [], .lost e => some ({ p.machine with running := false }, .error (.excess e))
  | _, _ => none

/-- What can happen at a point of a run: it goes on, or another run is attempted on its machine. -/
inductive Move : Point → Point → Prop
  | goOn {p q : Point} (next : p.next? = some q) : Move p q
  | attempt (p : Point) (other : String) :
      Move p { p with machine := (p.machine.run other).1 }

end Point

def Machine.start (m : Machine) (source : String) : Point where
  machine := { m with running := true }
  due := m.opening
  task := .lines {} 1 (Text.lines source)

namespace Machine

def goThrough (m : Machine) (t : Tally) (number : Int) (lines : List String) :
    Machine × Except RunFailure Report :=
  let (p, t, ending) := m.toProcessor.runLines t number lines
  let m := { m with toProcessor := p }
  match ending with
  | .error e => ({ m with running := false }, .error (.excess e))
  | .ok status =>
    let (m, report) := m.finish t status
    (m, .ok report)

theorem proceed_eq (m : Machine) (source : String) :
    m.proceed source = m.goThrough {} 1 (Text.lines source) := rfl

section
variable {m : Machine} {t : Tally} {number : Int} {s : String} {lines : List String}

theorem goThrough_nil : m.goThrough t number [] =
    ({ m.changeAll (t.closing .completed) with running := false },
      .ok ((m.changeAll (t.closing .completed)).reportOf t .completed)) := rfl

theorem goThrough_blank
    (parse : Instruction.parse m.config.comments number (Text.trim s) = none) :
    m.goThrough t number (s :: lines) = m.goThrough t (number + 1) lines := by
  simp only [goThrough, Processor.runLines, Processor.execute, parse]

variable {i : Instruction}
  (parse : Instruction.parse m.config.comments number (Text.trim s) = some i)
include parse

theorem goThrough_lost {e : Numeral.Excess}
    (take : Step.take m.config.width m.registers i = .error e) :
    m.goThrough t number (s :: lines) =
      ({ m.change (.write (Step.echo i)) with running := false }, .error (.excess e)) := by
  simp only [goThrough, Processor.runLines, Processor.execute, parse, Processor.perform,
    Processor.write, take, Except.map]
  rfl

variable {step : Step} (take : Step.take m.config.width m.registers i = .ok step)
include take

theorem goThrough_step (goesOn : ¬(step.failed = true ∧ m.config.policy = .abort)) :
    m.goThrough t number (s :: lines) =
      ((m.change (.write (Step.echo i))).changeAll step.changes).goThrough (t.add step) (number + 1)
        lines := by
  rw [changeAll_changes]
  simp only [goThrough, Processor.runLines, Processor.execute, parse, Processor.perform,
    Processor.write, Processor.commit, take, Except.map, goesOn, ↓reduceIte, change]

theorem goThrough_abort (stops : step.failed = true ∧ m.config.policy = .abort) :
    m.goThrough t number (s :: lines) =
      let t := { t.add step with aborted := true }
      let m := ((m.change (.write (Step.echo i))).changeAll step.changes).changeAll
        (t.closing (.aborted number))
      ({ m with running := false }, .ok (m.reportOf t (.aborted number))) := by
  rw [changeAll_changes]
  simp only [goThrough, Processor.runLines, Processor.execute, parse, Processor.perform,
    Processor.write, Processor.commit, take, Except.map, stops, and_self, ↓reduceIte, change]
  rfl

end

end Machine

namespace Point

def GoesOn (p q : Point) : Prop := p.next? = some q

abbrev LeadsTo : Point → Point → Prop := Relation.ReflTransGen GoesOn

theorem moves_of_leadsTo {p q : Point} (h : LeadsTo p q) : Relation.ReflTransGen Move p q := by
  induction h with
  | refl => exact .refl
  | tail earlier next ih => exact ih.tail (.goOn next)

theorem leadsTo_due (m : Machine) (due : List Change) (task : Task) :
    LeadsTo ⟨m, due, task⟩ ⟨m.changeAll due, [], task⟩ := by
  induction due generalizing m with
  | nil => exact .refl
  | cons c due ih => exact .head rfl (ih (m.change c))

section
variable {m : Machine} {t : Tally} {number : Int} {s : String} {lines : List String}

theorem leadsTo_blank (parse : Instruction.parse m.config.comments number (Text.trim s) = none) :
    LeadsTo ⟨m, [], .lines t number (s :: lines)⟩ ⟨m, [], .lines t (number + 1) lines⟩ := by
  apply Relation.ReflTransGen.single
  simp only [GoesOn, next?, parse]

variable {i : Instruction}

theorem leadsTo_take (parse : Instruction.parse m.config.comments number (Text.trim s) = some i) :
    LeadsTo ⟨m, [], .lines t number (s :: lines)⟩
      ⟨m.change (.write (Step.echo i)), [], .take i t number lines⟩ := by
  refine .head ?_ (leadsTo_due m [.write (Step.echo i)] (.take i t number lines))
  simp only [GoesOn, next?, parse]

theorem leadsTo_lost {e : Numeral.Excess}
    (take : Step.take m.config.width m.registers i = .error e) :
    LeadsTo ⟨m, [], .take i t number lines⟩ ⟨m, [], .lost e⟩ := by
  apply Relation.ReflTransGen.single
  simp only [GoesOn, next?, take]

variable {step : Step} (take : Step.take m.config.width m.registers i = .ok step)
include take

theorem leadsTo_step (goesOn : ¬(step.failed = true ∧ m.config.policy = .abort)) :
    LeadsTo ⟨m, [], .take i t number lines⟩
      ⟨m.changeAll step.changes, [], .lines (t.add step) (number + 1) lines⟩ := by
  refine .head ?_ (leadsTo_due m step.changes (.lines (t.add step) (number + 1) lines))
  simp only [GoesOn, next?, take, goesOn, ↓reduceIte]

theorem leadsTo_abort (stops : step.failed = true ∧ m.config.policy = .abort) :
    LeadsTo ⟨m, [], .take i t number lines⟩
      ⟨(m.changeAll step.changes).changeAll
        (Tally.closing { t.add step with aborted := true } (.aborted number)), [],
        .report { t.add step with aborted := true } (.aborted number)⟩ := by
  rw [← Machine.changeAll_append]
  refine .head ?_ (leadsTo_due m _ _)
  simp only [GoesOn, next?, take, stops, and_self, ↓reduceIte]

end

theorem exists_end_of_lines (m : Machine) (t : Tally) (number : Int) (lines : List String) :
    ∃ q, LeadsTo ⟨m, [], .lines t number lines⟩ q ∧
      q.outcome? = some (m.goThrough t number lines) := by
  induction lines generalizing m t number with
  | nil =>
    refine ⟨_, .head rfl (leadsTo_due m (t.closing .completed) (.report t .completed)), ?_⟩
    rw [Machine.goThrough_nil]
    rfl
  | cons s lines ih =>
    cases parse : Instruction.parse m.config.comments number (Text.trim s) with
    | none =>
      obtain ⟨q, rest, outcome⟩ := ih m t (number + 1)
      rw [← Machine.goThrough_blank parse] at outcome
      exact ⟨q, (leadsTo_blank parse).trans rest, outcome⟩
    | some i =>
      have echo : LeadsTo ⟨m, [], .lines t number (s :: lines)⟩
          ⟨m.change (.write (Step.echo i)), [], .take i t number lines⟩ := leadsTo_take parse
      -- the echo changes nothing that the instruction looks at
      cases take : Step.take m.config.width m.registers i with
      | error e =>
        refine ⟨_, echo.trans (leadsTo_lost take), ?_⟩
        rw [Machine.goThrough_lost parse take]
        rfl
      | ok step =>
        by_cases stops : step.failed = true ∧ m.config.policy = .abort
        · refine ⟨_, echo.trans (leadsTo_abort take stops), ?_⟩
          rw [Machine.goThrough_abort parse take stops]
          rfl
        · obtain ⟨q, rest, outcome⟩ := ih
            ((m.change (.write (Step.echo i))).changeAll step.changes) (t.add step) (number + 1)
          rw [← Machine.goThrough_step parse take stops] at outcome
          exact ⟨q, echo.trans (.trans (leadsTo_step (m := m.change (.write (Step.echo i))) take
            stops) rest), outcome⟩

theorem exists_end {m : Machine} (idle : m.running = false) (source : String) :
    ∃ q, LeadsTo (m.start source) q ∧ q.outcome? = some (m.run source) := by
  obtain ⟨q, rest, outcome⟩ :=
    exists_end_of_lines { m.reset with running := true } {} 1 (Text.lines source)
  rw [Machine.run_of_idle idle, Machine.proceed_eq]
  exact ⟨q, (leadsTo_due { m with running := true } m.opening _).trans rest, outcome⟩

theorem next?_of_outcome {p : Point} {outcome : Machine × Except RunFailure Report}
    (h : p.outcome? = some outcome) : p.next? = none := by
  unfold outcome? at h
  unfold next?
  split at h <;> simp_all

theorem leadsTo_end {p q r : Point} (h : LeadsTo p q) (to_end : LeadsTo p r)
    (last : r.next? = none) : LeadsTo q r := by
  have unique : Relator.RightUnique GoesOn := by
    intro a b c hb hc
    exact Option.some.inj (hb.symm.trans hc)
  rcases Relation.ReflTransGen.total_of_right_unique unique h to_end with there | back
  · exact there
  · cases back.cases_head with
    | inl same => exact same ▸ .refl
    | inr next =>
      obtain ⟨s, goesOn, _⟩ := next
      rw [GoesOn, last] at goesOn
      cases goesOn

theorem running_of_goesOn {p q : Point} (h : GoesOn p q) :
    q.machine.running = p.machine.running := by
  unfold GoesOn next? at h
  split at h
  · cases h
    exact Machine.running_change _ _
  · cases h; rfl
  · split at h <;> cases h <;> rfl
  · split at h
    · cases h; rfl
    · simp only at h
      split at h <;> cases h <;> rfl
  · cases h
  · cases h

/-- An attempt leads nowhere else, as the machine is running all the while. -/
theorem leadsTo_of_moves {m : Machine} {source : String} {p : Point}
    (h : Relation.ReflTransGen Move (m.start source) p) :
    LeadsTo (m.start source) p ∧ p.machine.running = true := by
  induction h with
  | refl => exact ⟨.refl, rfl⟩
  | tail earlier move ih =>
    obtain ⟨leads, running⟩ := ih
    cases move with
    | goOn next => exact ⟨leads.tail next, (running_of_goesOn next).trans running⟩
    | attempt other =>
      rw [Machine.run_of_running running]
      exact ⟨leads, running⟩

/-- Whatever was attempted on the way, a run comes to the end that it has alone. -/
theorem leadsTo_outcome {m : Machine} (idle : m.running = false) {source : String} {p : Point}
    (h : Relation.ReflTransGen Move (m.start source) p) :
    ∃ q, LeadsTo p q ∧ q.outcome? = some (m.run source) := by
  obtain ⟨q, to_end, outcome⟩ := exists_end idle source
  exact ⟨q, leadsTo_end (leadsTo_of_moves h).1 to_end (next?_of_outcome outcome), outcome⟩

theorem outcome_of_moves {m : Machine} (idle : m.running = false) {source : String} {p : Point}
    (h : Relation.ReflTransGen Move (m.start source) p)
    {outcome : Machine × Except RunFailure Report} (ended : p.outcome? = some outcome) :
    outcome = m.run source := by
  obtain ⟨q, to_end, last⟩ := leadsTo_outcome idle h
  rcases to_end.cases_head with rfl | ⟨r, goesOn, _⟩
  · exact Option.some.inj (ended.symm.trans last)
  · rw [GoesOn, next?_of_outcome ended] at goesOn
    cases goesOn

end Point
end RegisterMachine
