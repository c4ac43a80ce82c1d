import RegisterMachine.Machine
import RegisterMachine.Proofs.Step

/-! Runs as a relation. A walk over numbered lines takes the steps of those with code, one after
the other, and ends in one of three ways: after the last line, at a step that the policy stops at,
or at an instruction that makes no step. Trace, tally and report are read off the steps and the
ending, so a property of all runs is proved by induction on walks. -/
namespace RegisterMachine

/-- How a walk ends: with a status, or broken off at an instruction. -/
inductive Ending where
  | finished (status : Status)
  | broken (instruction : Instruction) (excess : Numeral.Excess)

inductive Walk (c : Config) : Registers → Int → List String → List Step → Ending → Prop
  | done (r : Registers) (number : Int) : Walk c r number [] [] (.finished .completed)
  | blank {r : Registers} {number : Int} {s : String} {lines : List String} {steps : List Step}
      {ending : Ending} (parse : Instruction.parse c.comments number (Text.trim s) = none)
      (rest : Walk c r (number + 1) lines steps ending) : Walk c r number (s :: lines) steps ending
  | step {r : Registers} {number : Int} {s : String} {lines : List String} {i : Instruction}
      {step : Step} {steps : List Step} {ending : Ending}
      (parse : Instruction.parse c.comments number (Text.trim s) = some i)
      (taken : Step.Taken c.width r i step)
      (goesOn : ¬(step.failed = true ∧ c.policy = .abort))
      (rest : Walk c (step.apply r) (number + 1) lines steps ending) :
      Walk c r number (s :: lines) (step :: steps) ending
  | abort {r : Registers} {number : Int} {s : String} {lines : List String} {i : Instruction}
      {step : Step} (parse : Instruction.parse c.comments number (Text.trim s) = some i)
      (taken : Step.Taken c.width r i step) (failed : step.failed = true)
      (policy : c.policy = .abort) :
      Walk c r number (s :: lines) [step] (.finished (.aborted number))
  | broken {r : Registers} {number : Int} {s : String} {lines : List String} {i : Instruction}
      {e : Numeral.Excess} (parse : Instruction.parse c.comments number (Text.trim s) = some i)
      (stuck : Step.Stuck c.width r i e) : Walk c r number (s :: lines) [] (.broken i e)

theorem Walk.exists_walk (c : Config) (r : Registers) (number : Int) (lines : List String) :
    ∃ steps ending, Walk c r number lines steps ending := by
  induction lines generalizing r number with
  | nil => exact ⟨[], _, .done r number⟩
  | cons s lines ih =>
    cases parse : Instruction.parse c.comments number (Text.trim s) with
    | none =>
      obtain ⟨steps, ending, rest⟩ := ih r (number + 1)
      exact ⟨steps, ending, .blank parse rest⟩
    | some i =>
      rcases Step.taken_or_stuck c.width r i with ⟨step, taken⟩ | ⟨e, stuck⟩
      · by_cases stops : step.failed = true ∧ c.policy = .abort
        · exact ⟨[step], _, .abort parse taken stops.1 stops.2⟩
        · obtain ⟨steps, ending, rest⟩ := ih (step.apply r) (number + 1)
          exact ⟨step :: steps, ending, .step parse taken stops rest⟩
      · exact ⟨[], _, .broken parse stuck⟩

section
variable {c : Config} {r : Registers} {number : Int} {s : String} {lines : List String}
  {steps : List Step} {ending : Ending}

theorem Walk.rest_of_blank (h : Walk c r number (s :: lines) steps ending)
    (parse : Instruction.parse c.comments number (Text.trim s) = none) :
    Walk c r (number + 1) lines steps ending := by
  cases h with
  | blank _ rest => exact rest
  | step parse' => rw [parse] at parse'; cases parse'
  | abort parse' => rw [parse] at parse'; cases parse'
  | broken parse' => rw [parse] at parse'; cases parse'

theorem Walk.cases_of_code (h : Walk c r number (s :: lines) steps ending) {i : Instruction}
    (parse : Instruction.parse c.comments number (Text.trim s) = some i) :
    (∃ step rest, steps = step :: rest ∧ Step.Taken c.width r i step ∧
        ¬(step.failed = true ∧ c.policy = .abort) ∧
        Walk c (step.apply r) (number + 1) lines rest ending) ∨
      (∃ step, steps = [step] ∧ ending = .finished (.aborted number) ∧
        Step.Taken c.width r i step ∧ step.failed = true ∧ c.policy = .abort) ∨
      ∃ e, steps = [] ∧ ending = .broken i e ∧ Step.Stuck c.width r i e := by
  cases h with
  | blank parse' => rw [parse] at parse'; cases parse'
  | step parse' taken goesOn rest =>
    rw [parse] at parse'
    cases parse'
    exact .inl ⟨_, _, rfl, taken, goesOn, rest⟩
  | abort parse' taken failed policy =>
    rw [parse] at parse'
    cases parse'
    exact .inr (.inl ⟨_, rfl, rfl, taken, failed, policy⟩)
  | broken parse' stuck =>
    rw [parse] at parse'
    cases parse'
    exact .inr (.inr ⟨_, rfl, rfl, stuck⟩)

/-- What holds of every step that a line from here on can make holds of all steps of a walk. -/
theorem Walk.forall_steps {P : Step → Prop} (h : Walk c r number lines steps ending)
    (each : ∀ (r : Registers) (line : Int) (text : String) (i : Instruction) (step : Step),
      number ≤ line → Instruction.parse c.comments line text = some i →
      Step.Taken c.width r i step → P step) : ∀ step ∈ steps, P step := by
  induction h with
  | done => simp
  | blank parse rest ih =>
    exact ih fun r line text i step after => each r line text i step (by omega)
  | step parse taken goesOn rest ih =>
    refine List.forall_mem_cons.mpr ⟨each _ _ _ _ _ (Int.le_refl _) parse taken, ?_⟩
    exact ih fun r line text i step after => each r line text i step (by omega)
  | abort parse taken failed policy =>
    exact List.forall_mem_singleton.mpr (each _ _ _ _ _ (Int.le_refl _) parse taken)
  | broken => simp

end

/-- A broken instruction is echoed and leaves nothing else. -/
def Ending.leave : Ending → Processor → Processor
  | finished _, p => p
  | broken i _, p => p.write (Step.echo i)

def Ending.mark : Ending → Tally → Tally
  | finished (.aborted _), t => { t with aborted := true }
  | _, t => t

def Ending.result : Ending → Except Numeral.Excess Status
  | finished status => .ok status
  | broken _ e => .error e

def Tally.addAll (t : Tally) (steps : List Step) : Tally := steps.foldl add t

@[simp] theorem Tally.addAll_nil (t : Tally) : t.addAll [] = t := rfl

@[simp] theorem Tally.addAll_cons (t : Tally) (s : Step) (steps : List Step) :
    t.addAll (s :: steps) = (t.add s).addAll steps := rfl

theorem Tally.steps_addAll (t : Tally) (steps : List Step) :
    (t.addAll steps).steps.toList = t.steps.toList ++ steps := by
  induction steps generalizing t with
  | nil => simp
  | cons s steps ih => simp [ih, add]

theorem Tally.failures_addAll (t : Tally) (steps : List Step) :
    (t.addAll steps).failures.toList = t.failures.toList ++ steps.filterMap Step.failure? := by
  induction steps generalizing t with
  | nil => simp
  | cons s steps ih =>
    rw [addAll_cons, ih]
    cases h : s.failure? <;> simp [add, h]

@[simp] theorem Tally.aborted_addAll (t : Tally) (steps : List Step) :
    (t.addAll steps).aborted = t.aborted := by
  induction steps generalizing t with
  | nil => rfl
  | cons s steps ih => exact ih (t.add s)

theorem Walk.runLines_eq {p : Processor} {t : Tally} {number : Int} {lines : List String}
    {steps : List Step} {ending : Ending}
    (h : Walk p.config p.registers number lines steps ending) :
    p.runLines t number lines =
      (ending.leave (p.after steps), ending.mark (t.addAll steps), ending.result) := by
  generalize hc : p.config = c at h
  generalize hr : p.registers = r at h
  induction h generalizing p t with
  | done => rfl
  | blank parse rest ih =>
    subst hc hr
    simp only [Processor.runLines, Processor.execute, parse]
    exact ih rfl rfl
  | @step r number s lines i step steps ending parse taken goesOn rest ih =>
    subst hc hr
    simp only [Processor.runLines, Processor.execute, parse, Processor.perform_of_taken taken,
      Except.map, Processor.config_after, goesOn, ↓reduceIte]
    exact ih (Processor.config_after _ _) (Processor.registers_after _ _)
  | abort parse taken failed policy =>
    subst hc hr
    simp only [Processor.runLines, Processor.execute, parse, Processor.perform_of_taken taken,
      Except.map, Processor.config_after, failed, policy, and_self, ↓reduceIte]
    rfl
  | broken parse stuck =>
    subst hc hr
    simp only [Processor.runLines, Processor.execute, parse, Processor.perform_of_stuck stuck,
      Except.map]
    rfl

end RegisterMachine
