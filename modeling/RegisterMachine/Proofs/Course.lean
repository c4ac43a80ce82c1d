import RegisterMachine.Program
import RegisterMachine.Proofs.Agreement
import RegisterMachine.Proofs.Tokens

/-! Runs as a relation between instructions and steps. A course takes the steps of a list of
instructions, and a walk over lines is a course over the program on them: lines without code, their
numbers and the comment setting matter to a run only through the instructions they leave. -/
namespace RegisterMachine

inductive Course (w : Width) (policy : Policy) :
    Registers → List Instruction → List Step → Ending → Prop
  | done (r : Registers) : Course w policy r [] [] (.finished .completed)
  | step {r : Registers} {i : Instruction} {program : List Instruction} {step : Step}
      {steps : List Step} {ending : Ending} (taken : Step.Taken w r i step)
      (goesOn : ¬(step.failed = true ∧ policy = .abort))
      (rest : Course w policy (step.apply r) program steps ending) :
      Course w policy r (i :: program) (step :: steps) ending
  | abort {r : Registers} {i : Instruction} {program : List Instruction} {step : Step}
      (taken : Step.Taken w r i step) (failed : step.failed = true) (stops : policy = .abort) :
      Course w policy r (i :: program) [step] (.finished (.aborted i.line))
  | broken {r : Registers} {i : Instruction} {program : List Instruction} {e : Numeral.Excess}
      (stuck : Step.Stuck w r i e) : Course w policy r (i :: program) [] (.broken i e)

namespace Program
variable {comments : Bool} {number : Int} {s : String}

theorem parseLines_cons_blank (h : Instruction.parse comments number (Text.trim s) = none)
    (lines : List String) :
    parseLines comments number (s :: lines) = parseLines comments (number + 1) lines := by
  rw [Instruction.parse_trim] at h
  simp only [parseLines, h]

theorem parseLines_cons_code {i : Instruction}
    (h : Instruction.parse comments number (Text.trim s) = some i) (lines : List String) :
    parseLines comments number (s :: lines) = i :: parseLines comments (number + 1) lines := by
  rw [Instruction.parse_trim] at h
  simp only [parseLines, h]

end Program

section
variable {c : Config} {r : Registers} {number : Int} {lines : List String} {steps : List Step}
  {ending : Ending}

theorem Walk.course (h : Walk c r number lines steps ending) :
    Course c.width c.policy r (Program.parseLines c.comments number lines) steps ending := by
  induction h with
  | done r number => exact .done r
  | blank parse rest ih =>
    rw [Program.parseLines_cons_blank parse]
    exact ih
  | step parse taken goesOn rest ih =>
    rw [Program.parseLines_cons_code parse]
    exact .step taken goesOn ih
  | abort parse taken failed policy =>
    rw [Program.parseLines_cons_code parse, ← Instruction.line_of_parse parse]
    exact .abort taken failed policy
  | broken parse stuck =>
    rw [Program.parseLines_cons_code parse]
    exact .broken stuck

theorem Course.walk
    (h : Course c.width c.policy r (Program.parseLines c.comments number lines) steps ending) :
    Walk c r number lines steps ending := by
  induction lines generalizing r number steps with
  | nil =>
    cases h
    exact .done r number
  | cons s lines ih =>
    cases parse : Instruction.parse c.comments number (Text.trim s) with
    | none =>
      rw [Program.parseLines_cons_blank parse] at h
      exact .blank parse (ih h)
    | some i =>
      rw [Program.parseLines_cons_code parse] at h
      cases h with
      | step taken goesOn rest => exact .step parse taken goesOn (ih rest)
      | abort taken failed policy =>
        rw [Instruction.line_of_parse parse]
        exact .abort parse taken failed policy
      | broken stuck => exact .broken parse stuck

end

theorem Machine.walks_iff_course {m : Machine} {source : String} {steps : List Step}
    {ending : Ending} :
    m.Walks source steps ending ↔ Course m.config.width m.config.policy m.registers.reset
      (Program.parse m.config.comments source) steps ending :=
  ⟨Walk.course, Course.walk⟩

theorem Machine.run_congr_program {m : Machine} {source source' : String}
    (same : Program.parse m.config.comments source = Program.parse m.config.comments source') :
    (m.run source).2 = (m.run source').2 := by
  cases idle : m.running with
  | true => rw [run_of_running idle, run_of_running idle]
  | false =>
    obtain ⟨steps, ending, walks⟩ := m.exists_walks source
    have walks' : m.Walks source' steps ending :=
      walks_iff_course.mpr (same ▸ walks_iff_course.mp walks)
    cases ending with
    | finished status => rw [report_of_walks idle walks, report_of_walks idle walks']
    | broken i e => rw [excess_of_walks idle walks, excess_of_walks idle walks']

namespace Step
variable {w : Width} {r : Registers} {i : Instruction}

theorem Taken.unique {s s' : Step} (h : Taken w r i s) (h' : Taken w r i s') : s = s' :=
  Except.ok.inj ((take_of_taken h).symm.trans (take_of_taken h'))

theorem Stuck.unique {e e' : Numeral.Excess} (h : Stuck w r i e) (h' : Stuck w r i e') : e = e' :=
  Except.error.inj ((take_of_stuck h).symm.trans (take_of_stuck h'))

theorem Taken.not_stuck {s : Step} {e : Numeral.Excess} (h : Taken w r i s) : ¬Stuck w r i e := by
  intro stuck
  have := (take_of_taken h).symm.trans (take_of_stuck stuck)
  cases this

end Step

namespace Course
variable {w : Width} {policy : Policy} {r : Registers} {program : List Instruction}
  {steps : List Step} {ending : Ending}

theorem exists_course (w : Width) (policy : Policy) (r : Registers) (program : List Instruction) :
    ∃ steps ending, Course w policy r program steps ending := by
  induction program generalizing r with
  | nil => exact ⟨[], _, .done r⟩
  | cons i program ih =>
    rcases Step.taken_or_stuck w r i with ⟨step, taken⟩ | ⟨e, stuck⟩
    · by_cases stops : step.failed = true ∧ policy = .abort
      · exact ⟨[step], _, .abort taken stops.1 stops.2⟩
      · obtain ⟨steps, ending, rest⟩ := ih (step.apply r)
        exact ⟨step :: steps, ending, .step taken stops rest⟩
    · exact ⟨[], _, .broken stuck⟩

theorem unique (h : Course w policy r program steps ending) {steps' : List Step}
    {ending' : Ending} (h' : Course w policy r program steps' ending') :
    steps = steps' ∧ ending = ending' := by
  induction h generalizing steps' with
  | done r =>
    cases h'
    exact ⟨rfl, rfl⟩
  | step taken goesOn rest ih =>
    cases h' with
    | step taken' goesOn' rest' =>
      obtain rfl := taken.unique taken'
      obtain ⟨rfl, rfl⟩ := ih rest'
      exact ⟨rfl, rfl⟩
    | abort taken' failed stops =>
      obtain rfl := taken.unique taken'
      exact absurd ⟨failed, stops⟩ goesOn
    | broken stuck => exact (taken.not_stuck stuck).elim
  | abort taken failed stops =>
    cases h' with
    | step taken' goesOn rest =>
      obtain rfl := taken.unique taken'
      exact absurd ⟨failed, stops⟩ goesOn
    | abort taken' failed' stops' =>
      obtain rfl := taken.unique taken'
      exact ⟨rfl, rfl⟩
    | broken stuck => exact (taken.not_stuck stuck).elim
  | broken stuck =>
    cases h' with
    | step taken goesOn rest => exact (taken.not_stuck stuck).elim
    | abort taken failed stops => exact (taken.not_stuck stuck).elim
    | broken stuck' => exact ⟨rfl, by rw [stuck.unique stuck']⟩

theorem instructions_isPrefix (h : Course w policy r program steps ending) :
    steps.map Step.instruction <+: program := by
  induction h with
  | done => exact List.nil_prefix
  | step taken goesOn rest ih =>
    rw [List.map_cons, taken.instruction_eq]
    exact List.cons_prefix_cons.mpr ⟨rfl, ih⟩
  | abort taken failed stops =>
    rw [List.map_singleton, taken.instruction_eq]
    exact List.cons_prefix_cons.mpr ⟨rfl, List.nil_prefix⟩
  | broken => exact List.nil_prefix

theorem exists_taken (h : Course w policy r program steps ending) : ∀ step ∈ steps,
    step.instruction ∈ program ∧
      ∃ r' : Registers, r'.names = r.names ∧ Step.Taken w r' step.instruction step := by
  induction h with
  | done => simp
  | @step r i program step steps ending taken goesOn rest ih =>
    refine List.forall_mem_cons.mpr ⟨?_, fun s hs => ?_⟩
    · rw [taken.instruction_eq]
      exact ⟨List.mem_cons_self, r, rfl, taken⟩
    · obtain ⟨mem, r', names, taken'⟩ := ih s hs
      exact ⟨List.mem_cons_of_mem _ mem, r', names.trans (Step.names_apply _ _), taken'⟩
  | @abort r i program step taken failed stops =>
    rw [List.forall_mem_singleton, taken.instruction_eq]
    exact ⟨List.mem_cons_self, r, rfl, taken⟩
  | broken => simp

theorem instructions_of_completed (h : Course w policy r program steps ending)
    (completed : ending = .finished .completed) : steps.map Step.instruction = program := by
  induction h with
  | done => rfl
  | step taken goesOn rest ih => rw [List.map_cons, taken.instruction_eq, ih completed]
  | abort => cases completed
  | broken => cases completed

end Course

theorem Machine.Walks.exists_taken {m : Machine} {source : String} {steps : List Step}
    {ending : Ending} (walks : m.Walks source steps ending) : ∀ step ∈ steps,
    step.instruction ∈ Program.parse m.config.comments source ∧ ∃ r : Registers,
      r.names = m.registers.names ∧ Step.Taken m.config.width r step.instruction step := by
  have taken := (walks_iff_course.mp walks).exists_taken
  rwa [Registers.names_reset] at taken

end RegisterMachine
