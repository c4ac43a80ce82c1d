import Mathlib.Data.List.Forall2
import Mathlib.Logic.Relation
import RegisterMachine.Proofs.NeverStuck
import RegisterMachine.Proofs.Signature

/-! Edits that change no run. Whatever keeps the signatures of the lines with code keeps the run,
but for what is echoed and for line numbers: line ends, lines without code, blanks, comments and
operands that are ignored. -/
namespace RegisterMachine

/-- Lines that report the same of a step, apart from the number of a failing line. -/
inductive SameReport : String → String → Prop
  | same (line : String) : SameReport line line
  | failure (number₁ number₂ : Int) (reason : String) :
      SameReport ("Error on line " ++ Numeral.text number₁ ++ ": " ++ reason)
        ("Error on line " ++ Numeral.text number₂ ++ ": " ++ reason)

/-- Lines of two traces that differ at most in what they echo or in a line number. -/
inductive SameLine : String → String → Prop
  | report {line₁ line₂ : String} (same : SameReport line₁ line₂) : SameLine line₁ line₂
  | echo (text₁ text₂ : String) : SameLine ("Executing: " ++ text₁) ("Executing: " ++ text₂)
  | aborted (number₁ number₂ : Int) :
      SameLine ("Execution aborted on line " ++ Numeral.text number₁ ++ ".")
        ("Execution aborted on line " ++ Numeral.text number₂ ++ ".")

/-- Reports that tell the same of two sources but for echoes and line numbers. -/
structure Report.Alike (r₁ r₂ : Report) : Prop where
  registers : r₁.registers = r₂.registers
  aborted : r₁.aborted = r₂.aborted
  outcomes : r₁.steps.map Step.outcome = r₂.steps.map Step.outcome
  /-- Kind, details and reason of every failure, but not where it happened. -/
  faults : r₁.failures.map LineFault.fault = r₂.failures.map LineFault.fault
  /-- What is reported of each step stands in the middle of its block. -/
  bodies : ∀ k < r₁.steps.length, ∃ body₁ body₂, r₁.lines[3 * k + 2]? = some body₁ ∧
    r₂.lines[3 * k + 2]? = some body₂ ∧ SameReport body₁ body₂
  lines : List.Forall₂ SameLine r₁.lines r₂.lines

/-- Runs that both give reports, and then such that are alike, or fail for the same reason. -/
inductive SameRun : Except RunFailure Report → Except RunFailure Report → Prop
  | report {r₁ r₂ : Report} (alike : r₁.Alike r₂) : SameRun (.ok r₁) (.ok r₂)
  | failure (e : RunFailure) : SameRun (.error e) (.error e)

namespace Step

def Numbered (s : Step) : Prop := ∀ f, s.failure? = some f →
  s.report = "Error on line " ++ Numeral.text s.line ++ ": " ++ f.reason

theorem sameReport {s₁ s₂ : Step} (same : s₁.bare = s₂.bare) (numbered₁ : s₁.Numbered)
    (numbered₂ : s₂.Numbered) : SameReport s₁.report s₂.report := by
  have failed : s₁.failed = s₂.failed := by rw [← failed_bare, same, failed_bare]
  cases h : s₁.failed with
  | false =>
    rw [← report_bare h, same, report_bare (failed ▸ h)]
    exact .same _
  | true =>
    obtain ⟨f₁, hf₁⟩ := exists_failure h
    obtain ⟨f₂, hf₂⟩ := exists_failure (failed ▸ h)
    have fault : f₁.fault = f₂.fault := by
      have bare := failure?_bare s₁
      rw [same, failure?_bare, hf₁, hf₂] at bare
      exact (Option.some.inj bare).symm
    rw [numbered₁ f₁ hf₁, numbered₂ f₂ hf₂, LineFault.reason, LineFault.reason, fault]
    exact .failure _ _ _

theorem sameReports {steps₁ steps₂ : List Step} (same : steps₁.map bare = steps₂.map bare)
    (numbered₁ : ∀ s ∈ steps₁, s.Numbered) (numbered₂ : ∀ s ∈ steps₂, s.Numbered) :
    List.Forall₂ (fun s₁ s₂ => SameReport s₁.report s₂.report) steps₁ steps₂ := by
  induction steps₁ generalizing steps₂ with
  | nil =>
    rw [List.map_eq_nil_iff.mp same.symm]
    exact .nil
  | cons s₁ steps₁ ih =>
    obtain ⟨s₂, steps₂, rfl, first, rest⟩ := List.map_eq_cons_iff.mp same.symm
    obtain ⟨numbered₁, others₁⟩ := List.forall_mem_cons.mp numbered₁
    obtain ⟨numbered₂, others₂⟩ := List.forall_mem_cons.mp numbered₂
    exact .cons (sameReport first.symm numbered₁ numbered₂) (ih rest.symm others₁ others₂)

@[simp] theorem outcomes_map_bare (steps : List Step) :
    (steps.map bare).map outcome = steps.map outcome := by
  simp [Function.comp_def]

@[simp] theorem faults_map_bare (steps : List Step) :
    ((steps.map bare).filterMap failure?).map LineFault.fault =
      (steps.filterMap failure?).map LineFault.fault := by
  simp [List.map_filterMap, List.filterMap_map, failure?_bare]

theorem sameLines_blocks {steps₁ steps₂ : List Step}
    (same : List.Forall₂ (fun s₁ s₂ => SameReport s₁.report s₂.report) steps₁ steps₂)
    {line₁ line₂ : String} (last : SameLine line₁ line₂) :
    List.Forall₂ SameLine (steps₁.flatMap block ++ [line₁]) (steps₂.flatMap block ++ [line₂]) := by
  induction same with
  | nil => exact .cons last .nil
  | cons first rest ih =>
    exact .cons (.echo _ _) (.cons (.report first) (.cons (.report (.same _)) ih))

end Step

theorem Ending.eq_or_aborted {status₁ status₂ : Status}
    (same : (finished status₁).bare = (finished status₂).bare) :
    status₁ = status₂ ∨ ∃ line₁ line₂, status₁ = .aborted line₁ ∧ status₂ = .aborted line₂ := by
  cases status₁ with
  | aborted line₁ =>
    cases status₂ with
    | aborted line₂ => exact .inr ⟨line₁, line₂, rfl, rfl⟩
    | idle | ready | completed => cases same
  | idle | ready | completed =>
    cases status₂ with
    | aborted line₂ => cases same
    | idle | ready | completed => exact .inl (Ending.finished.inj same)

theorem Ending.sameLine {status₁ status₂ : Status}
    (same : (finished status₁).bare = (finished status₂).bare) :
    SameLine status₁.text status₂.text ∧ status₁.isAborted = status₂.isAborted := by
  rcases eq_or_aborted same with rfl | ⟨line₁, line₂, rfl, rfl⟩
  · exact ⟨.report (.same _), rfl⟩
  · exact ⟨.aborted line₁ line₂, rfl⟩

def Config.withComments (c : Config) (comments : Bool) : Config := { c with comments }

namespace Machine

def withComments (m : Machine) (comments : Bool) : Machine :=
  { m with config := m.config.withComments comments }

theorem Walks.numbered {m : Machine} {source : String} {steps : List Step} {status : Status}
    (walks : m.Walks source steps (.finished status)) : ∀ s ∈ steps, s.Numbered :=
  fun s hs f hf => (walks.placed s hs f hf).2.2.2

theorem Walks.alike {m₁ m₂ : Machine} {source₁ source₂ : String} {steps₁ steps₂ : List Step}
    {status₁ status₂ : Status} (walks₁ : m₁.Walks source₁ steps₁ (.finished status₁))
    (walks₂ : m₂.Walks source₂ steps₂ (.finished status₂))
    (same : steps₁.map Step.bare = steps₂.map Step.bare)
    (ending : (Ending.finished status₁).bare = (Ending.finished status₂).bare) (r : Registers) :
    (Report.ofSteps r steps₁ status₁).Alike (Report.ofSteps r steps₂ status₂) := by
  have reports := Step.sameReports same walks₁.numbered walks₂.numbered
  obtain ⟨last, aborted⟩ := Ending.sameLine ending
  exact {
    registers := by
      have registers := congrArg (Step.applyAll r) same
      rwa [Step.applyAll_map_bare, Step.applyAll_map_bare] at registers
    aborted
    outcomes := by
      have outcomes := congrArg (List.map Step.outcome) same
      rwa [Step.outcomes_map_bare, Step.outcomes_map_bare] at outcomes
    faults := by
      have faults := congrArg
        (fun steps => (steps.filterMap Step.failure?).map LineFault.fault) same
      rwa [Step.faults_map_bare, Step.faults_map_bare] at faults
    bodies := by
      intro k hk
      have hk₂ : k < steps₂.length := reports.length_eq ▸ hk
      have at_k := reports.get hk hk₂
      exact ⟨_, _, Report.getElem?_lines_ofSteps (List.getElem?_eq_getElem hk),
        Report.getElem?_lines_ofSteps (List.getElem?_eq_getElem hk₂), at_k⟩
    lines := .cons (.report (.same _)) (Step.sameLines_blocks reports last) }

theorem sameRun_of_signatures (m : Machine) {comments₁ comments₂ : Bool} {source₁ source₂ : String}
    (same : Program.signatures comments₁ source₁ = Program.signatures comments₂ source₂) :
    SameRun ((m.withComments comments₁).run source₁).2
      ((m.withComments comments₂).run source₂).2 := by
  cases idle : m.running with
  | true =>
    rw [run_of_running (m := m.withComments comments₁) idle,
      run_of_running (m := m.withComments comments₂) idle]
    exact .failure _
  | false =>
    obtain ⟨steps₁, ending₁, walks₁⟩ := (m.withComments comments₁).exists_walks source₁
    obtain ⟨steps₂, ending₂, course₂, steps, ending⟩ :=
      (walks_iff_course.mp walks₁).exists_of_signatures same
    have walks₂ : (m.withComments comments₂).Walks source₂ steps₂ ending₂ :=
      walks_iff_course.mpr course₂
    cases ending₁ with
    | finished status₁ =>
      cases ending₂ with
      | finished status₂ =>
        rw [report_of_walks (m := m.withComments comments₁) idle walks₁,
          report_of_walks (m := m.withComments comments₂) idle walks₂]
        exact .report (walks₁.alike walks₂ steps ending _)
      | broken i e => cases status₁ <;> cases ending
    | broken i e =>
      cases ending₂ with
      | finished status₂ => cases status₂ <;> cases ending
      | broken j e' =>
        obtain rfl : e = e' := (Ending.broken.inj ending).2
        rw [excess_of_walks (m := m.withComments comments₁) idle walks₁,
          excess_of_walks (m := m.withComments comments₂) idle walks₂]
        exact .failure _

end Machine

/-- An edit of a source that touches none of its signatures. -/
inductive Edit (comments : Bool) : String → String → Prop
  /-- The line ends are spelled in another way. -/
  | lineEnds {source source' : String} (same : Text.unifyEnds source = Text.unifyEnds source') :
      Edit comments source source'
  /-- A line comes in that has nothing but blanks before its comment. -/
  | blankLine {source source' s : String} {above below : List String}
      (without : Text.lines source = above ++ below)
      (within : Text.lines source' = above ++ s :: below)
      (blank : ∀ c ∈ (Text.code comments s).toList, Text.isBlank c = true) :
      Edit comments source source'
  /-- A line gets other blanks between its words, or another comment. -/
  | spacing {source source' s t : String} {above below : List String}
      (before : Text.lines source = above ++ s :: below)
      (after : Text.lines source' = above ++ t :: below)
      (same : Text.tokens comments s = Text.tokens comments t) : Edit comments source source'
  /-- A line gets operands past those that its opcode uses. -/
  | operands {source source' s t : String} {above below : List String} {op : Opcode}
      {used extra : List String} (before : Text.lines source = above ++ s :: below)
      (after : Text.lines source' = above ++ t :: below) (enough : op.arity ≤ used.length)
      (tokens : Text.tokens comments s = op.name :: used)
      (more : Text.tokens comments t = op.name :: (used ++ extra)) : Edit comments source source'

theorem Edit.signatures_eq {comments : Bool} {source source' : String}
    (h : Edit comments source source') :
    Program.signatures comments source = Program.signatures comments source' := by
  -- all but new line ends change one line only, between the same lines above and below
  have line {above below : List String} {s t : String}
      (before : Text.lines source = above ++ s :: below)
      (after : Text.lines source' = above ++ t :: below)
      (same : Program.lineSignature? comments s = Program.lineSignature? comments t) :
      Program.signatures comments source = Program.signatures comments source' := by
    rw [Program.signatures_eq, Program.signatures_eq, before, after, List.filterMap_append,
      List.filterMap_append, List.filterMap_cons, List.filterMap_cons, same]
  cases h with
  | lineEnds same =>
    have ends : Text.Chars.unifyEnds source.toList = Text.Chars.unifyEnds source'.toList :=
      String.ofList_injective same
    rw [Program.signatures_eq, Program.signatures_eq, Text.lines, Text.lines, Text.Chars.lines,
      Text.Chars.lines, ends]
  | @blankLine s above below without within blank =>
    have none : Program.lineSignature? comments s = none := by
      rw [Program.lineSignature?, Text.tokens_of_blank blank]
      rfl
    rw [Program.signatures_eq, Program.signatures_eq, without, within, List.filterMap_append,
      List.filterMap_append, List.filterMap_cons_none none]
  | spacing before after same =>
    apply line before after
    rw [Program.lineSignature?, Program.lineSignature?, same]
  | operands before after enough tokens more =>
    apply line before after
    rw [Program.lineSignature?, Program.lineSignature?, tokens, more]
    simp only [Instruction.ofTokens, Option.map_some, Instruction.signature, Opcode.ofName?_name,
      List.take_append_of_le_length enough]

/-- A run depends on the signatures alone. Sources with the same signatures, each under its own
comment setting, have the same run but for echoes and line numbers; so no sequence of edits that
touch no signature changes a run. -/
theorem Machine.run_depends_on_signatures :
    (∀ (m : Machine) (comments₁ comments₂ : Bool) (source₁ source₂ : String),
      Program.signatures comments₁ source₁ = Program.signatures comments₂ source₂ →
      SameRun ((m.withComments comments₁).run source₁).2
        ((m.withComments comments₂).run source₂).2) ∧
    ∀ (m : Machine) (source source' : String),
      Relation.EqvGen (Edit m.config.comments) source source' →
      SameRun (m.run source).2 (m.run source').2 := by
  constructor
  · intro m comments₁ comments₂ source₁ source₂ same
    exact sameRun_of_signatures m same
  · intro m source source' edits
    have same : Program.signatures m.config.comments source =
        Program.signatures m.config.comments source' := by
      induction edits with
      | rel source source' edit => exact edit.signatures_eq
      | refl source => rfl
      | symm source source' edits ih => exact ih.symm
      | trans source₁ source₂ source₃ first second ih₁ ih₂ => exact ih₁.trans ih₂
    exact sameRun_of_signatures m same

def annotated : String := "; a sum\nLOAD R1 5 // five\n\nADD R1 R9 R2\nADD R1 R1\nPRINT R1"

def unannotated : String := "\tLOAD  R1 5 //\r\nADD R1 R9\rADD R1 R1\nPRINT R1 R2 R3"

theorem Machine.run_of_annotated :
    SameRun (((ofConfig .default).withComments true).run annotated).2
        (((ofConfig .default).withComments false).run unannotated).2 ∧
      SameRun ((ofConfig .default).run "ADD R1 R1\nPRINT R1").2
        ((ofConfig .default).run "ADD R1 R1\n // twice\nPRINT R1 R1").2 := by
  have spelled : Program.signatures true annotated = Program.signatures false unannotated := by
    decide +kernel
  have commented : Edit true "ADD R1 R1\nPRINT R1" "ADD R1 R1\n // twice\nPRINT R1" :=
    @Edit.blankLine true _ _ " // twice" ["ADD R1 R1"] ["PRINT R1"]
      (by decide +kernel) (by decide +kernel) (List.all_eq_true.mp (by decide +kernel))
  have lengthened :
      Edit true "ADD R1 R1\n // twice\nPRINT R1" "ADD R1 R1\n // twice\nPRINT R1 R1" :=
    @Edit.operands true _ _ "PRINT R1" "PRINT R1 R1" ["ADD R1 R1", " // twice"] [] .print ["R1"]
      ["R1"] (by decide +kernel) (by decide +kernel) (by decide) (by decide +kernel)
      (by decide +kernel)
  exact ⟨run_depends_on_signatures.1 (ofConfig .default) true false annotated unannotated spelled,
    run_depends_on_signatures.2 (ofConfig .default) _ _
      (.trans _ _ _ (.rel _ _ commented) (.rel _ _ lengthened))⟩

end RegisterMachine
