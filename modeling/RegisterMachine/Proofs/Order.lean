import Mathlib.Data.List.Nodup
import RegisterMachine.Proofs.Course
import RegisterMachine.Proofs.NeverStuck

/-! The order of a run. The instructions of a source are numbered by its lines, their numbers grow,
and a run takes them in that order: all of them, or those up to the failure that it stops at. -/
namespace RegisterMachine

theorem Instruction.text_of_parse {comments : Bool} {line : Int} {s : String} {i : Instruction}
    (h : parse comments line s = some i) : i.text = Text.trim s := by
  rw [parse_eq] at h
  unfold ofTokens at h
  split at h
  · cases h
  · cases h
    rfl

namespace Program
variable {comments : Bool} {number : Int} {lines : List String} {i : Instruction}

theorem mem_parseLines_iff : i ∈ parseLines comments number lines ↔
    ∃ (k : Nat) (s : String), lines[k]? = some s ∧
      Instruction.parse comments (number + k) s = some i := by
  induction lines generalizing number with
  | nil => simp [parseLines]
  | cons s lines ih =>
    have shift (k : Nat) : number + 1 + k = number + (k + 1 : Nat) := by omega
    have later : i ∈ parseLines comments (number + 1) lines ↔ ∃ (k : Nat) (t : String),
        (s :: lines)[k + 1]? = some t ∧
          Instruction.parse comments (number + (k + 1 : Nat)) t = some i := by
      simp only [ih, shift, List.getElem?_cons_succ]
    have first : (∃ t, (s :: lines)[0]? = some t ∧
        Instruction.parse comments (number + (0 : Nat)) t = some i) ↔
          Instruction.parse comments number s = some i := by simp
    rw [← Nat.or_exists_add_one, first, ← later]
    cases parse : Instruction.parse comments number s with
    | none => simp [parseLines, parse]
    | some j => simp [parseLines, parse, eq_comm]

theorem le_line_of_mem (h : i ∈ parseLines comments number lines) : number ≤ i.line := by
  obtain ⟨k, s, _, parse⟩ := mem_parseLines_iff.mp h
  rw [Instruction.line_of_parse parse]
  omega

theorem pairwise_line_parseLines :
    (parseLines comments number lines).Pairwise fun i j => i.line < j.line := by
  induction lines generalizing number with
  | nil => exact List.Pairwise.nil
  | cons s lines ih =>
    cases parse : Instruction.parse comments number s with
    | none =>
      simp only [parseLines, parse]
      exact ih
    | some i =>
      simp only [parseLines, parse]
      refine List.Pairwise.cons (fun j hj => ?_) ih
      have := le_line_of_mem hj
      rw [Instruction.line_of_parse parse]
      omega

end Program

theorem mem_of_isPrefix {α : Type} {R : α → α → Prop} {front whole : List α} {a b : α}
    (initial : front <+: whole) (ordered : whole.Pairwise R) (ha : a ∈ whole) (hb : b ∈ front)
    (before : ¬R b a) : a ∈ front := by
  obtain ⟨rest, rfl⟩ := initial
  rcases List.mem_append.mp ha with ha | ha
  · exact ha
  · exact absurd ((List.pairwise_append.mp ordered).2.2 b hb a ha) before

/-- How the steps of a report follow the program on some lines, under a policy for failing ones. -/
structure Report.Follows (policy : Policy) (comments : Bool) (source : String) (r : Report) :
    Prop where
  skip : policy = .skip → r.steps.map Step.instruction = Program.parse comments source
  /-- The program as far as the first failure, or all of it if nothing fails. -/
  abort : policy = .abort →
    (r.steps.map Step.instruction = Program.parse comments source ∧
        ∀ s ∈ r.steps, s.failed = false) ∨
      ∃ init last, r.steps = init ++ [last] ∧ (∀ s ∈ init, s.failed = false) ∧
        last.failed = true ∧ r.steps.map Step.instruction <+: Program.parse comments source
  increasing : r.steps.Pairwise fun s t => s.line < t.line
  /-- The text of a step is that of the line it is numbered by. -/
  texts : ∀ s ∈ r.steps, ∃ (k : Nat) (text : String), s.line = k + 1 ∧
    (Text.lines source)[k]? = some text ∧ Text.trim text = s.instruction.text
  /-- A line with code is carried out exactly once, unless the run was aborted before it. -/
  once : ∀ (k : Nat) (text : String) (i : Instruction), (Text.lines source)[k]? = some text →
    Instruction.parse comments (k + 1) text = some i →
    (r.aborted = true → ∃ s ∈ r.steps, k + 1 ≤ s.line) →
    (r.steps.map Step.instruction).count i = 1

section
variable {m : Machine} {source : String} {steps : List Step} {status : Status}
  (walks : m.Walks source steps (.finished status))
include walks

theorem Machine.Walks.completed_of_skip (skip : m.config.policy = .skip) : status = .completed := by
  rcases Walk.completed_or_aborted walks rfl with ⟨completed, _⟩ | ⟨_, _, _, abort, _⟩
  · exact completed
  · rw [skip] at abort
    cases abort

theorem Machine.Walks.instructions_isPrefix :
    steps.map Step.instruction <+: Program.parse m.config.comments source :=
  (walks_iff_course.mp walks).instructions_isPrefix

theorem Machine.Walks.instructions_eq (completed : status = .completed) :
    steps.map Step.instruction = Program.parse m.config.comments source :=
  (walks_iff_course.mp walks).instructions_of_completed (by rw [completed])

theorem Machine.Walks.pairwise_line :
    (steps.map Step.instruction).Pairwise fun i j => i.line < j.line :=
  Program.pairwise_line_parseLines.sublist walks.instructions_isPrefix.sublist

theorem Machine.Walks.mem_instructions {i : Instruction}
    (hi : i ∈ Program.parse m.config.comments source)
    (reached : status.isAborted = true → ∃ s ∈ steps, i.line ≤ s.line) :
    i ∈ steps.map Step.instruction := by
  rcases Walk.completed_or_aborted walks rfl with ⟨completed, _⟩ |
    ⟨init, last, _, _, _, _, aborted⟩
  · rwa [walks.instructions_eq completed]
  · obtain ⟨s, hs, le⟩ := reached (by rw [aborted]; rfl)
    refine mem_of_isPrefix walks.instructions_isPrefix Program.pairwise_line_parseLines hi
      (List.mem_map_of_mem hs) ?_
    exact Int.not_lt.mpr le

theorem Machine.Walks.follows : (Report.ofSteps m.registers.reset steps status).Follows
    m.config.policy m.config.comments source where
  skip := fun skip => walks.instructions_eq (walks.completed_of_skip skip)
  abort := by
    intro abort
    rcases Walk.completed_or_aborted walks rfl with ⟨completed, succeed⟩ |
      ⟨init, last, split, _, failed, others, _⟩
    · exact .inl ⟨walks.instructions_eq completed, succeed abort⟩
    · exact .inr ⟨init, last, split, others, failed, walks.instructions_isPrefix⟩
  increasing := by
    have increasing := walks.pairwise_line
    rwa [List.pairwise_map] at increasing
  texts := by
    intro s hs
    have hi := walks.instructions_isPrefix.subset (List.mem_map_of_mem hs)
    obtain ⟨k, text, line, parse⟩ := Program.mem_parseLines_iff.mp hi
    refine ⟨k, text, ?_, line, (Instruction.text_of_parse parse).symm⟩
    rw [Step.line, Instruction.line_of_parse parse]
    omega
  once := by
    intro k text i line parse reached
    have hi : i ∈ Program.parse m.config.comments source := by
      refine Program.mem_parseLines_iff.mpr ⟨k, text, line, ?_⟩
      rwa [Int.add_comm]
    have nodup : (steps.map Step.instruction).Nodup :=
      walks.pairwise_line.imp fun lt eq => absurd (eq ▸ lt) (Int.lt_irrefl _)
    rw [← Instruction.line_of_parse parse] at reached
    exact List.count_eq_one_of_mem nodup (walks.mem_instructions hi reached)

end

/-- A run takes the instructions of its source in their order, each line with code once: all of
them if failing lines are skipped, and those up to the first failure if it aborts the run. -/
theorem Machine.steps_follow_program (m : Machine) (source : String) (report : Report)
    (h : (m.run source).2 = .ok report) :
    report.Follows m.config.policy m.config.comments source := by
  obtain ⟨steps, status, _, walks, rfl⟩ := walks_of_report h
  exact walks.follows

def fiveLines : String := "; five\r\n  LOAD R1 5 // five\r\n\tADD R1 R9 R2\rPRINT R1\n"

theorem Machine.steps_of_fiveLines :
    (∃ report, ((ofConfig .default).run fiveLines).2 = .ok report ∧
      report.Follows .skip true fiveLines) ∧
    ∃ report, ((ofConfig { Config.default with policy := .abort }).run fiveLines).2 = .ok report ∧
      report.Follows .abort true fiveLines := by
  have writable : Config.default.width.Writable := Config.writable_default
  obtain ⟨skipped, skip⟩ := exists_report (m := ofConfig .default) rfl writable fiveLines
  obtain ⟨aborted, abort⟩ :=
    exists_report (m := ofConfig { Config.default with policy := .abort }) rfl writable fiveLines
  exact ⟨⟨skipped, skip, steps_follow_program _ _ skipped skip⟩,
    ⟨aborted, abort, steps_follow_program _ _ aborted abort⟩⟩

end RegisterMachine
