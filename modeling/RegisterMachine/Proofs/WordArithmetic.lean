import RegisterMachine.Proofs.Lockstep

/-! Word arithmetic is exact arithmetic folded once. Folding after every sum comes to the same as
folding at the end, so a run is determined by its exact integers, and a narrow run by any wider one
that does the same steps. -/
namespace RegisterMachine

theorem Machine.folds_of_report {m : Machine} {source : String} {report : Report}
    (h : (m.run source).2 = .ok report) :
    report.registers.cells = m.registers.names.map fun name =>
      (name, m.config.width.wrap (Step.exactFrom (fun _ => 0) report.steps name)) := by
  obtain ⟨steps, status, _, walks, rfl⟩ := walks_of_report h
  have folds := Walk.folds walks (Registers.folds_ofNames m.config.width m.registers.names)
  have cells := folds.cells_eq
  rw [Step.names_applyAll, Registers.names_reset] at cells
  exact cells

theorem Machine.prints_of_report {m : Machine} {source : String} {report : Report}
    (h : (m.run source).2 = .ok report) {k : Nat} {step : Step} {name : String} {rest : List String}
    (at_k : report.steps[k]? = some step) (print : step.done? = some (.print, name :: rest)) :
    report.lines[3 * k + 2]? = some ("Value in " ++ name ++ ": " ++ Numeral.text
      (m.config.width.wrap (Step.exactFrom (fun _ => 0) (report.steps.take k) name))) := by
  obtain ⟨steps, status, _, walks, rfl⟩ := walks_of_report h
  have taken : steps[k]? = some step := at_k
  have zeros := Registers.folds_ofNames m.config.width m.registers.names
  rw [Report.getElem?_lines_ofSteps taken, Walk.report_of_print walks zeros taken print]
  rfl

theorem Machine.lockstep_of_reports {m₁ m₂ : Machine} {source : String} {report₁ report₂ : Report}
    (names : m₁.registers.names = m₂.registers.names)
    (policy : m₁.config.policy = m₂.config.policy)
    (comments : m₁.config.comments = m₂.config.comments) (le : m₁.config.width ≤ m₂.config.width)
    (h₁ : (m₁.run source).2 = .ok report₁) (h₂ : (m₂.run source).2 = .ok report₂)
    (fits : ∀ s ∈ report₂.steps, s.Fits m₁.config.width m₂.config.width) :
    (report₁.steps.map fun s => (s.instruction, s.outcome)) =
        (report₂.steps.map fun s => (s.instruction, s.outcome)) ∧
      report₁.status = report₂.status ∧
      report₁.registers = report₂.registers.folded m₁.config.width := by
  obtain ⟨steps₁, status₁, _, walks₁, rfl⟩ := walks_of_report h₁
  obtain ⟨steps₂, status₂, _, walks₂, rfl⟩ := walks_of_report h₂
  have zeros : m₁.registers.reset = m₂.registers.reset.folded m₁.config.width := by
    rw [Registers.reset, Registers.reset, Registers.folded_ofNames, names]
  unfold Walks at walks₁
  rw [zeros] at walks₁
  obtain ⟨same, finished, registers⟩ := walks₁.lockstep comments policy le walks₂ (by simp) fits
  cases finished
  rw [← zeros] at registers
  exact ⟨same, rfl, registers⟩

/-- The registers at the end, and what every print showed on the way, are the exact integers of the
steps folded once. A width that has in its range all that a wider one loads makes the same steps
with the same outcomes, and ends with the wider registers folded; of unbounded registers this holds
if no sum overflowed. -/
theorem Machine.word_arithmetic_is_exact_folded_once :
    (∀ (m : Machine) (source : String) (report : Report), (m.run source).2 = .ok report →
      (report.registers.cells = m.registers.names.map fun name =>
        (name, m.config.width.wrap (Step.exactFrom (fun _ => 0) report.steps name))) ∧
      ∀ k step name rest, report.steps[k]? = some step →
        step.done? = some (.print, name :: rest) →
        report.lines[3 * k + 2]? = some ("Value in " ++ name ++ ": " ++ Numeral.text
          (m.config.width.wrap (Step.exactFrom (fun _ => 0) (report.steps.take k) name)))) ∧
    ∀ (m₁ m₂ : Machine) (source : String) (report₁ report₂ : Report),
      m₁.registers.names = m₂.registers.names → m₁.config.policy = m₂.config.policy →
      m₁.config.comments = m₂.config.comments → m₁.config.width ≤ m₂.config.width →
      (m₁.run source).2 = .ok report₁ → (m₂.run source).2 = .ok report₂ →
      (∀ step ∈ report₂.steps, ∀ target token rest,
        step.done? = some (.load, target :: token :: rest) →
        m₁.config.width.Holds (Literal.value token.toList)) →
      (m₂.config.width = .unbounded →
        ∀ f ∈ report₂.failures, ∀ register bits, f.fault ≠ .overflow register bits) →
      (report₁.steps.map fun s => (s.line, s.outcome)) =
          (report₂.steps.map fun s => (s.line, s.outcome)) ∧
        report₁.status = report₂.status ∧
        report₁.registers.cells =
          report₂.registers.cells.map fun cell => (cell.1, m₁.config.width.wrap cell.2) := by
  constructor
  · intro m source report h
    exact ⟨folds_of_report h, fun k step name rest at_k print => prints_of_report h at_k print⟩
  · intro m₁ m₂ source report₁ report₂ names policy comments le h₁ h₂ loads sums
    have fits : ∀ s ∈ report₂.steps, s.Fits m₁.config.width m₂.config.width := by
      intro s hs
      refine ⟨loads s hs, fun unbounded f hf => sums unbounded f ?_⟩
      obtain ⟨steps₂, status₂, _, walks₂, rfl⟩ := walks_of_report h₂
      exact List.mem_filterMap.mpr ⟨s, hs, hf⟩
    obtain ⟨same, status, registers⟩ := lockstep_of_reports names policy comments le h₁ h₂ fits
    refine ⟨?_, status, congrArg Registers.cells registers⟩
    have forget := congrArg (List.map fun p : Instruction × Outcome => (p.1.line, p.2)) same
    simpa [Step.line, Function.comp_def] using forget

def doubledHundred : String := "LOAD R1 100\nADD R1 R1\nPRINT R1"

theorem Machine.word_arithmetic_of_doubledHundred :
    ∃ narrow wide : Report,
      ((ofConfig (.withWidth .default (.bits 8 (by decide)))).run doubledHundred).2 = .ok narrow ∧
      ((ofConfig (.withWidth .default .unbounded)).run doubledHundred).2 = .ok wide ∧
      narrow.lines[8]? = some ("Value in R1: " ++ Numeral.text ((Width.bits 8 (by decide)).wrap
        (Step.exactFrom (fun _ => 0) (narrow.steps.take 2) "R1"))) ∧
      (narrow.steps.map fun s => (s.line, s.outcome)) =
        (wide.steps.map fun s => (s.line, s.outcome)) ∧
      narrow.registers.cells =
        wide.registers.cells.map fun cell => (cell.1, (Width.bits 8 (by decide)).wrap cell.2) := by
  have narrow_done : ((ofConfig (.withWidth .default (.bits 8 (by decide)))).run
      doubledHundred).2.toOption.map (fun r => r.steps[2]?.bind Step.done?) =
        some (some (.print, ["R1"])) := by decide +kernel
  have wide_done : ((ofConfig (.withWidth .default .unbounded)).run
      doubledHundred).2.toOption.map (fun r => (r.steps.filterMap Step.done?, r.failures)) =
        some ([(.load, ["R1", "100"]), (.add, ["R1", "R1"]), (.print, ["R1"])], []) := by
    decide +kernel
  cases h₁ : ((ofConfig (.withWidth .default (.bits 8 (by decide)))).run doubledHundred).2 with
  | error e =>
    rw [h₁] at narrow_done
    cases narrow_done
  | ok narrow =>
    cases h₂ : ((ofConfig (.withWidth .default .unbounded)).run doubledHundred).2 with
    | error e =>
      rw [h₂] at wide_done
      cases wide_done
    | ok wide =>
      rw [h₁] at narrow_done
      rw [h₂] at wide_done
      obtain ⟨step, at_two, print⟩ := Option.bind_eq_some_iff.mp (Option.some.inj narrow_done)
      obtain ⟨dones, failures⟩ := Prod.mk.inj (Option.some.inj wide_done)
      have loads : ∀ step ∈ wide.steps, ∀ target token rest,
          step.done? = some (.load, target :: token :: rest) →
          (Width.bits 8 (by decide)).Holds (Literal.value token.toList) := by
        intro step mem target token rest load
        have loaded : (.load, target :: token :: rest) ∈ wide.steps.filterMap Step.done? :=
          List.mem_filterMap.mpr ⟨step, mem, load⟩
        rw [dones] at loaded
        simp at loaded
        obtain ⟨_, rfl, _⟩ := loaded
        decide
      have shown := (word_arithmetic_is_exact_folded_once.1 _ _ narrow h₁).2 2 step "R1" [] at_two
        print
      have same := word_arithmetic_is_exact_folded_once.2
        (ofConfig (.withWidth .default (.bits 8 (by decide))))
        (ofConfig (.withWidth .default .unbounded)) _ narrow wide rfl rfl rfl
        (Width.le_unbounded _) h₁ h₂ loads fun _ f hf => by simp [failures] at hf
      exact ⟨narrow, wide, rfl, rfl, shown, same.1, same.2.2⟩

end RegisterMachine
