import RegisterMachine.Proofs.Order

/-! Aborting cuts a run short. A run that aborts at a failing line is the run that skips such lines
as far as its first failure, and leaves the registers that the lines up to there leave on their
own. -/
namespace RegisterMachine

namespace Text

def firstLines (count : Nat) (s : String) : String := unlines ((lines s).take count)

theorem lines_firstLines {count : Nat} (pos : 0 < count) (s : String) :
    lines (firstLines count s) = (lines s).take count := by
  have ne : lines s ≠ [] := by simpa [lines] using Chars.lines_ne_nil s.toList
  apply lines_unlines
  · exact fun t ht => isLine_of_mem_lines (List.mem_of_mem_take ht)
  · rw [Ne, List.take_eq_nil_iff]
    exact not_or.mpr ⟨by omega, ne⟩

end Text

namespace Program
variable {comments : Bool}

theorem parseLines_take (number : Int) (count : Nat) (lines : List String) :
    parseLines comments number (lines.take count) =
      (parseLines comments number lines).filter fun i => i.line < number + count := by
  induction lines generalizing number count with
  | nil => simp [parseLines]
  | cons s lines ih =>
    cases count with
    | zero =>
      symm
      rw [List.take_zero, parseLines, List.filter_eq_nil_iff]
      intro i hi
      have := le_line_of_mem hi
      simpa using this
    | succ count =>
      have shift : number + (count + 1 : Nat) = number + 1 + count := by omega
      rw [List.take_succ_cons, shift]
      cases parse : Instruction.parse comments number s with
      | none => simp only [parseLines, parse, ih]
      | some i =>
        have inside : i.line < number + 1 + count := by
          rw [Instruction.line_of_parse parse]
          omega
        simp only [parseLines, parse, ih, List.filter_cons, inside, decide_true, ↓reduceIte]

theorem parse_firstLines {count : Nat} (pos : 0 < count) (source : String) :
    parse comments (Text.firstLines count source) =
      (parse comments source).filter fun i => i.line < (1 : Int) + count := by
  rw [parse, Text.lines_firstLines pos, parseLines_take]
  rfl

theorem parse_firstLines_of_split {source : String} {front rest : List Instruction}
    {i : Instruction} (split : parse comments source = front ++ i :: rest) :
    parse comments (Text.firstLines i.line.toNat source) = front ++ [i] := by
  have ordered : (front ++ i :: rest).Pairwise fun i j => i.line < j.line := by
    rw [← split]
    exact pairwise_line_parseLines
  have pos : 1 ≤ i.line := le_line_of_mem (split ▸ by simp : i ∈ parse comments source)
  obtain ⟨_, fromI, across⟩ := List.pairwise_append.mp ordered
  have before : ∀ j ∈ front, j.line < 1 + i.line.toNat := by
    intro j hj
    have := across j hj i List.mem_cons_self
    omega
  have after : ∀ j ∈ rest, ¬j.line < 1 + i.line.toNat := by
    intro j hj
    have := (List.pairwise_cons.mp fromI).1 j hj
    omega
  have self : i.line < 1 + i.line.toNat := by omega
  rw [parse_firstLines (by omega), split, List.filter_append, List.filter_cons,
    List.filter_eq_self.mpr (by simpa using before),
    List.filter_eq_nil_iff.mpr (by simpa using after), if_pos (by simpa using self)]

end Program

namespace Course
variable {w : Width} {r : Registers} {program : List Instruction} {ending : Ending}

theorem abort_of_succeed {steps : List Step} (h : Course w .skip r program steps ending)
    (succeed : ∀ s ∈ steps, s.failed = false) : Course w .abort r program steps ending := by
  induction h with
  | done r => exact .done r
  | @step r i program step steps ending taken goesOn rest ih =>
    obtain ⟨first, others⟩ := List.forall_mem_cons.mp succeed
    exact .step taken (by simp [first]) (ih others)
  | abort taken failed stops => cases stops
  | broken stuck => exact .broken stuck

section
variable {front rest : List Step} {last : Step}

theorem abort_at_failure (h : Course w .skip r program (front ++ last :: rest) ending)
    (succeed : ∀ s ∈ front, s.failed = false) (failed : last.failed = true) :
    Course w .abort r program (front ++ [last]) (.finished (.aborted last.line)) := by
  generalize split : front ++ last :: rest = steps at h
  induction h generalizing front with
  | done => simp at split
  | step taken goesOn others ih =>
    cases front with
    | nil =>
      cases split
      rw [Step.line, taken.instruction_eq]
      exact .abort taken failed rfl
    | cons first front =>
      obtain ⟨rfl, remaining⟩ := List.cons.inj split
      obtain ⟨succeeds, succeed⟩ := List.forall_mem_cons.mp succeed
      exact .step taken (by simp [succeeds]) (ih succeed remaining)
  | abort taken failed stops => cases stops
  | broken => simp at split

theorem skip_of_append (h : Course w .skip r program (front ++ rest) ending) :
    Course w .skip r (front.map Step.instruction) front (.finished .completed) := by
  generalize split : front ++ rest = steps at h
  induction h generalizing front with
  | done r =>
    obtain ⟨rfl, _⟩ := List.append_eq_nil_iff.mp split
    exact .done r
  | @step r i program step steps ending taken goesOn others ih =>
    cases front with
    | nil => exact .done r
    | cons first front =>
      obtain ⟨rfl, remaining⟩ := List.cons.inj split
      rw [List.map_cons, taken.instruction_eq]
      exact .step taken goesOn (ih remaining)
  | abort taken failed stops => cases stops
  | @broken r =>
    obtain ⟨rfl, _⟩ := List.append_eq_nil_iff.mp split
    exact .done r

end

end Course

def Config.withPolicy (c : Config) (policy : Policy) : Config := { c with policy }

namespace Machine

def withPolicy (m : Machine) (policy : Policy) : Machine :=
  { m with config := m.config.withPolicy policy }

section
variable {m : Machine} {source : String} {steps : List Step} (idle : m.running = false)
  (walks : (m.withPolicy .skip).Walks source steps (.finished .completed))
include idle walks

theorem run_abort_of_succeed (succeed : ∀ s ∈ steps, s.failed = false) :
    ((m.withPolicy .abort).run source).2 =
      .ok (Report.ofSteps m.registers.reset steps .completed) := by
  have course := (walks_iff_course.mp walks).abort_of_succeed succeed
  exact report_of_walks (m := m.withPolicy .abort) idle (walks_iff_course.mpr course)

variable {front rest : List Step} {last : Step} (split : steps = front ++ last :: rest)
include split

theorem run_abort_at_failure (succeed : ∀ s ∈ front, s.failed = false)
    (failed : last.failed = true) : ((m.withPolicy .abort).run source).2 =
      .ok (Report.ofSteps m.registers.reset (front ++ [last]) (.aborted last.line)) := by
  have course := walks_iff_course.mp walks
  rw [split] at course
  have course := course.abort_at_failure succeed failed
  exact report_of_walks (m := m.withPolicy .abort) idle (walks_iff_course.mpr course)

theorem run_firstLines : ((m.withPolicy .skip).run (Text.firstLines last.line.toNat source)).2 =
      .ok (Report.ofSteps m.registers.reset (front ++ [last]) .completed) := by
  have program := walks.instructions_eq rfl
  have course := walks_iff_course.mp walks
  rw [split, List.append_cons] at course
  have course := course.skip_of_append
  rw [split, List.map_append, List.map_cons] at program
  have cut := Program.parse_firstLines_of_split program.symm
  rw [List.map_append, List.map_singleton, ← cut] at course
  exact report_of_walks (m := m.withPolicy .skip) idle (walks_iff_course.mpr course)

end

end Machine

theorem Step.succeed_or_failure (steps : List Step) : (∀ s ∈ steps, s.failed = false) ∨
    ∃ front last rest, steps = front ++ last :: rest ∧ (∀ s ∈ front, s.failed = false) ∧
      last.failed = true := by
  cases found : steps.find? failed with
  | none => exact .inl (by simpa using List.find?_eq_none.mp found)
  | some last =>
    obtain ⟨failed, front, rest, split, succeed⟩ := List.find?_eq_some_iff_append.mp found
    exact .inr ⟨front, last, rest, split, by simpa using succeed, failed⟩

theorem Report.dropLast_lines_ofSteps (r : Registers) (steps : List Step) (status : Status) :
    (ofSteps r steps status).lines.dropLast = Machine.banner :: steps.flatMap Step.block :=
  List.dropLast_concat

theorem Report.take_lines_ofSteps (r : Registers) (front rest : List Step) (status : Status) :
    (ofSteps r (front ++ rest) status).lines.take (1 + 3 * front.length) =
      Machine.banner :: front.flatMap Step.block := by
  have length := Step.length_blocks front
  rw [ofSteps, Nat.add_comm, List.cons_append, List.take_succ_cons, List.flatMap_append,
    List.append_assoc, List.take_append_of_le_length (by omega), List.take_of_length_le (by omega)]

/-- If a run that skips failing lines gives a report, so does the run that aborts at them: the same
report if nothing fails, and else the one that stops at the first failure, with the trace up to
there and the registers that the lines up to there leave. An unknown opcode stops nothing. -/
theorem Machine.abort_cuts_skip (m : Machine) (source : String) (skipped : Report)
    (h : ((m.withPolicy .skip).run source).2 = .ok skipped) :
    ∃ aborted, ((m.withPolicy .abort).run source).2 = .ok aborted ∧
      ((∀ s ∈ skipped.steps, s.failed = false) → aborted = skipped) ∧
      (∀ front last rest, skipped.steps = front ++ last :: rest →
        (∀ s ∈ front, s.failed = false) → last.failed = true →
        aborted.steps = front ++ [last] ∧
        aborted.lines.dropLast = skipped.lines.take (1 + 3 * aborted.steps.length) ∧
        ∃ cut, ((m.withPolicy .skip).run (Text.firstLines last.line.toNat source)).2 = .ok cut ∧
          aborted.registers = cut.registers) ∧
      ∀ front last, aborted.steps = front ++ [last] → last.verdict = .unknownOpcode →
        aborted = skipped := by
  obtain ⟨steps, status, idle, walks, rfl⟩ := walks_of_report h
  obtain rfl := walks.completed_of_skip rfl
  rcases Step.succeed_or_failure steps with succeed | ⟨front, last, rest, split, succeed, failed⟩
  · refine ⟨_, run_abort_of_succeed idle walks succeed, fun _ => rfl, ?_, fun _ _ _ _ => rfl⟩
    intro front last rest split _ failed
    have succeeds := succeed last (by rw [show steps = _ from split]; simp)
    simp [failed] at succeeds
  · have aborts := run_abort_at_failure idle walks split succeed failed
    refine ⟨_, aborts, ?_, ?_, ?_⟩
    · intro all
      have succeeds := all last (by rw [show Report.steps _ = _ from split]; simp)
      simp [failed] at succeeds
    · intro front' last' rest' split' succeed' failed'
      have same := aborts.symm.trans (run_abort_at_failure idle walks split' succeed' failed')
      rw [Except.ok.inj same]
      refine ⟨rfl, ?_, _, run_firstLines idle walks split', rfl⟩
      have split' : steps = (front' ++ [last']) ++ rest' := split'.trans (List.append_cons _ _ _)
      rw [Report.dropLast_lines_ofSteps, split']
      exact (Report.take_lines_ofSteps _ (front' ++ [last']) rest' _).symm
    · intro front' last' split' unknown
      obtain ⟨_, same⟩ := List.append_inj' split' rfl
      cases same
      simp [Step.failed, Step.failure?, unknown] at failed

theorem Machine.abort_cuts_fiveLines :
    ∃ skipped aborted cut : Report,
      ((ofConfig .default).run fiveLines).2 = .ok skipped ∧
      (((ofConfig .default).withPolicy .abort).run fiveLines).2 = .ok aborted ∧
      aborted.steps = skipped.steps.take 2 ∧
      aborted.lines.dropLast = skipped.lines.take 7 ∧
      ((ofConfig .default).run (Text.firstLines 3 fiveLines)).2 = .ok cut ∧
      aborted.registers = cut.registers := by
  have shape : ((ofConfig .default).run fiveLines).2.toOption.map (fun r =>
      r.steps.map fun s => (s.failed, s.line)) = some [(false, 2), (true, 3), (false, 4)] := by
    decide +kernel
  cases h : ((ofConfig .default).run fiveLines).2 with
  | error e =>
    rw [h] at shape
    cases shape
  | ok skipped =>
    rw [h] at shape
    have shape : skipped.steps.map (fun s => (s.failed, s.line)) =
        [(false, 2), (true, 3), (false, 4)] := Option.some.inj shape
    obtain ⟨first, rest, split, succeeds, shape⟩ := List.map_eq_cons_iff.mp shape
    obtain ⟨last, rest, rfl, fails, _⟩ := List.map_eq_cons_iff.mp shape
    obtain ⟨failed, line⟩ := Prod.mk.inj fails
    obtain ⟨aborted, run, _, stops, _⟩ := abort_cuts_skip (ofConfig .default) fiveLines skipped h
    obtain ⟨steps, lines, cut, rerun, registers⟩ :=
      stops [first] last rest split (by simpa using (Prod.mk.inj succeeds).1) failed
    rw [steps] at lines
    rw [line] at rerun
    exact ⟨skipped, aborted, cut, rfl, run, by rw [steps, split]; rfl, lines, rerun, registers⟩

end RegisterMachine
