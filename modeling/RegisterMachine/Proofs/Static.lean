import RegisterMachine.Proofs.Cut
import RegisterMachine.Proofs.Lockstep

/-! Static failure. In bounded words no sum is out of range, and nothing else that an instruction is
checked for depends on what the registers hold; so what becomes of a line is what becomes of it on a
new machine, whatever came before it. -/
namespace RegisterMachine

namespace Registers
variable {r r' : Registers} (names : r.names = r'.names)
include names

theorem get?_none_of_names {name : String} (h : r.get? name = none) : r'.get? name = none := by
  rw [get?_eq_none_iff] at *
  rwa [← names]

theorem exists_get?_of_names {name : String} {v : Int} (h : r.get? name = some v) :
    ∃ v', r'.get? name = some v' := exists_get?_of_mem (names ▸ mem_names_of_get? h)

theorem unknown_of_names (name : String) : r.unknown name = r'.unknown name := by
  rw [unknown, unknown, names]

end Registers

theorem Width.fold_error {w : Width} {a : Int} {e : Numeral.Excess} (h : w.fold a = .error e)
    (b : Int) : w.fold b = .error e := by
  cases w with
  | unbounded => cases h
  | bits count two_le =>
    simp only [fold] at *
    split at h
    · exact h
    · cases h

/-- All that can be told of a step without knowing what the registers hold. -/
def Step.static (s : Step) : Instruction × Outcome × Option LineFault :=
  (s.instruction, s.outcome, s.failure?)

section
variable {w : Width} {r r' : Registers}

namespace Effect
variable {op : Opcode} {operands : List String}

theorem Refused.not_overflow (bounded : w ≠ .unbounded) {fault : Fault}
    (h : Refused w r op operands fault) (register : String) (bits : Int) :
    fault ≠ .overflow register bits := by
  cases h with
  | overflow left right folded exceeds => exact absurd (Width.holds_of_fold folded bounded) exceeds
  | arity | loadTarget | defect | addTarget | addSource | printSource => exact Fault.noConfusion

theorem Refused.of_names (bounded : w ≠ .unbounded) (names : r.names = r'.names) {fault : Fault}
    (h : Refused w r op operands fault) : Refused w r' op operands fault := by
  have unknown := Registers.unknown_of_names names
  cases h with
  | arity few => exact .arity few
  | loadTarget undeclared =>
    rw [unknown]
    exact .loadTarget (Registers.get?_none_of_names names undeclared)
  | defect declared bounds read writable =>
    obtain ⟨v, declared⟩ := Registers.exists_get?_of_names names declared
    exact .defect declared bounds read writable
  | addTarget undeclared =>
    rw [unknown]
    exact .addTarget (Registers.get?_none_of_names names undeclared)
  | addSource left undeclared =>
    obtain ⟨v, left⟩ := Registers.exists_get?_of_names names left
    rw [unknown]
    exact .addSource left (Registers.get?_none_of_names names undeclared)
  | overflow left right folded exceeds => exact absurd (Width.holds_of_fold folded bounded) exceeds
  | printSource undeclared =>
    rw [unknown]
    exact .printSource (Registers.get?_none_of_names names undeclared)

theorem Stuck.of_reset {e : Numeral.Excess} (h : Stuck w r.reset op operands e) :
    Stuck w r op operands e := by
  have names : r.reset.names = r.names := r.names_reset
  cases h with
  | bounds declared bounds =>
    obtain ⟨v, declared⟩ := Registers.exists_get?_of_names names declared
    exact .bounds declared bounds
  | defect declared bounds read unwritable =>
    obtain ⟨v, declared⟩ := Registers.exists_get?_of_names names declared
    exact .defect declared bounds read unwritable
  | sum left right folded =>
    obtain ⟨a, left⟩ := Registers.exists_get?_of_names names left
    obtain ⟨b, right⟩ := Registers.exists_get?_of_names names right
    exact .sum left right (Width.fold_error folded (a + b))
  | print declared unfit =>
    have zero := (Registers.inRange_reset .unbounded r).get? declared
    exact absurd (Width.fits_of_holds (w := .unbounded) trivial zero) unfit

end Effect

namespace Step
variable {i : Instruction} {s s' : Step}

theorem Taken.exists_on_reset (h : Taken w r i s) : ∃ s', Taken w r.reset i s' := by
  rcases taken_or_stuck w r.reset i with taken | ⟨e, op, opcode, stuck⟩
  · exact taken
  · exact absurd ⟨op, opcode, stuck.of_reset⟩ h.not_stuck

theorem Taken.of_failed (bounded : w ≠ .unbounded) (names : r.names = r'.names)
    (h : Taken w r i s) (failed : s.outcome = .failed) : Taken w r' i s := by
  cases h with
  | done opcode due => cases failed
  | unknown opcode => cases failed
  | failed opcode refused => exact .failed opcode (refused.of_names bounded names)

theorem Taken.static_eq (bounded : w ≠ .unbounded) (names : r.names = r'.names)
    (h : Taken w r i s) (h' : Taken w r' i s') : s.static = s'.static := by
  by_cases failed : s.outcome = .failed
  · rw [(h.of_failed bounded names failed).unique h']
  · by_cases failed' : s'.outcome = .failed
    · rw [h.unique (h'.of_failed bounded names.symm failed')]
    · cases h with
      | done opcode due =>
        cases h' with
        | done opcode' due' => rfl
        | unknown opcode' => rw [opcode] at opcode'; cases opcode'
        | failed opcode' refused => exact absurd rfl failed'
      | unknown opcode =>
        cases h' with
        | done opcode' due' => rw [opcode] at opcode'; cases opcode'
        | unknown opcode' => rfl
        | failed opcode' refused => exact absurd rfl failed'
      | failed opcode refused => exact absurd rfl failed

theorem Taken.not_overflow (bounded : w ≠ .unbounded) (h : Taken w r i s) {f : LineFault}
    (hf : s.failure? = some f) (register : String) (bits : Int) :
    f.fault ≠ .overflow register bits := by
  cases h with
  | done opcode due => cases hf
  | unknown opcode => cases hf
  | failed opcode refused =>
    cases hf
    exact refused.not_overflow bounded register bits

theorem failed_eq_of_static (h : s.static = s'.static) : s.failed = s'.failed := by
  have same : s.failure? = s'.failure? := congrArg (fun t => t.2.2) h
  rw [failed, failed, same]

end Step
end

namespace Config

/-- What a line comes to on a new machine. -/
def alone (config : Config) (text : String) (number : Int) :
    Except Numeral.Excess (Option Step) :=
  ((Machine.ofConfig config).execute text number).2

def failsAlone (config : Config) (text : String) (number : Int) : Bool :=
  match config.alone text number with
  | .ok (some s) => s.failed
  | _ => false

/-- How lines end that are cut off after the first that fails on its own. -/
def stop (config : Config) (number : Int) : List String → Status
  | [] => .completed
  | s :: lines =>
    if config.failsAlone s number then .aborted number else config.stop (number + 1) lines

section
variable {config : Config} {text : String} {number : Int}

theorem alone_of_blank (parse : Instruction.parse config.comments number text = none) :
    config.alone text number = .ok none :=
  congrArg Prod.snd (Processor.execute_of_blank (p := .ofConfig config) parse)

theorem failsAlone_of_blank (parse : Instruction.parse config.comments number text = none) :
    config.failsAlone text number = false := by
  simp only [failsAlone, alone_of_blank parse]

variable {i : Instruction} (parse : Instruction.parse config.comments number text = some i)
  (bounded : config.width ≠ .unbounded) {r : Registers} (names : r.names = config.names) {s : Step}
  (taken : Step.Taken config.width r i s)
include parse bounded names taken

theorem exists_alone : ∃ s', config.alone text number = .ok (some s') ∧ s'.static = s.static := by
  obtain ⟨s', alone⟩ := taken.exists_on_reset
  have static := alone.static_eq bounded r.names_reset taken
  rw [Registers.reset, names] at alone
  exact ⟨s', congrArg Prod.snd (Processor.execute_of_taken (p := .ofConfig config) parse alone),
    static⟩

theorem failsAlone_eq : config.failsAlone text number = s.failed := by
  obtain ⟨s', alone, static⟩ := exists_alone parse bounded names taken
  simp only [failsAlone, alone, Step.failed_eq_of_static static]

end

theorem status_eq_stop {config : Config} (bounded : config.width ≠ .unbounded) {r : Registers}
    (names : r.names = config.names) {number : Int} {lines : List String} {steps : List Step}
    {status : Status}
    (h : Walk (config.withPolicy .abort) r number lines steps (.finished status)) :
    status = config.stop number lines := by
  generalize hc : config.withPolicy .abort = c at h
  generalize finished : Ending.finished status = ending at h
  induction h with
  | done =>
    cases finished
    rfl
  | @blank r number s lines steps ending parse rest ih =>
    subst hc
    rw [Instruction.parse_trim] at parse
    have passes : config.failsAlone s number = false := failsAlone_of_blank parse
    rw [stop, passes]
    exact ih names finished
  | @step r number s lines i step steps ending parse taken goesOn rest ih =>
    subst hc
    have parse : Instruction.parse config.comments number s = some i := by
      rwa [Instruction.parse_trim] at parse
    have same : config.failsAlone s number = step.failed :=
      failsAlone_eq parse bounded names taken
    have passes : step.failed = false := Bool.eq_false_iff.mpr fun failed => goesOn ⟨failed, rfl⟩
    rw [stop, same, passes]
    exact ih ((Step.names_apply _ _).trans names) finished
  | @abort r number s lines i step parse taken failed policy =>
    subst hc
    cases finished
    have parse : Instruction.parse config.comments number s = some i := by
      rwa [Instruction.parse_trim] at parse
    have same : config.failsAlone s number = step.failed :=
      failsAlone_eq parse bounded names taken
    rw [stop, same, failed]
    rfl
  | broken => cases finished

end Config

/-- What a report says of every line is what the line comes to on its own. -/
structure Report.Static (config : Config) (source : String) (r : Report) : Prop where
  steps : ∀ s ∈ r.steps, ∃ (k : Nat) (text : String) (s' : Step),
    (Text.lines source)[k]? = some text ∧ s.line = k + 1 ∧
      config.alone text s.line = .ok (some s') ∧ s'.static = s.static
  blank : ∀ (k : Nat) (text : String), (Text.lines source)[k]? = some text →
    (∀ s ∈ r.steps, s.line ≠ k + 1) → config.alone text (k + 1) = .ok none
  overflow : ∀ f ∈ r.failures, ∀ register bits, f.fault ≠ .overflow register bits
  stop : ∃ aborted, (config.withPolicy .abort).run source = .ok aborted ∧
    aborted.status = config.stop 1 (Text.lines source)

namespace Config
variable {config : Config} {source : String}

theorem exists_abort_report {steps : List Step}
    (walks : ((Machine.ofConfig config).withPolicy .skip).Walks source steps
      (.finished .completed)) :
    ∃ aborted, (config.withPolicy .abort).run source = .ok aborted := by
  rcases Step.succeed_or_failure steps with succeed | ⟨front, last, rest, split, succeed, failed⟩
  · exact ⟨_, Machine.run_abort_of_succeed rfl walks succeed⟩
  · exact ⟨_, Machine.run_abort_at_failure rfl walks split succeed failed⟩

theorem static_of_report (bounded : config.width ≠ .unbounded) {report : Report}
    (h : (config.withPolicy .skip).run source = .ok report) : report.Static config source := by
  obtain ⟨steps, status, _, walks, rfl⟩ := Machine.walks_of_report h
  obtain rfl := walks.completed_of_skip rfl
  have program := walks.instructions_eq rfl
  have declared (policy : Policy) :
      (Machine.ofConfig (config.withPolicy policy)).registers.names = config.names :=
    Machine.names_ofConfig _
  exact {
    steps := by
      intro s hs
      obtain ⟨mem, r, names, taken⟩ := walks.exists_taken s hs
      rw [declared] at names
      obtain ⟨k, text, at_k, parse⟩ := Program.mem_parseLines_iff.mp mem
      have line : s.line = 1 + k := Instruction.line_of_parse parse
      have parse : Instruction.parse config.comments s.line text = some s.instruction := by
        rwa [line]
      obtain ⟨s', alone, static⟩ := exists_alone parse bounded names taken
      exact ⟨k, text, s', at_k, by omega, alone, static⟩
    blank := by
      intro k text at_k without
      apply alone_of_blank
      rw [Option.eq_none_iff_forall_ne_some]
      intro i parse
      have mem : i ∈ Program.parse config.comments source :=
        Program.mem_parseLines_iff.mpr ⟨k, text, at_k, by rwa [Int.add_comm]⟩
      rw [← show _ = Program.parse config.comments source from program] at mem
      obtain ⟨s, hs, rfl⟩ := List.mem_map.mp mem
      exact without s hs (Instruction.line_of_parse parse)
    overflow := by
      intro f hf
      obtain ⟨s, hs, failure⟩ := List.mem_filterMap.mp hf
      obtain ⟨_, r, _, taken⟩ := walks.exists_taken s hs
      exact taken.not_overflow bounded failure
    stop := by
      obtain ⟨aborted, run⟩ := exists_abort_report walks
      obtain ⟨steps', status', _, walks', rfl⟩ := Machine.walks_of_report run
      have names := (Registers.names_reset _).trans (declared .abort)
      exact ⟨_, run, status_eq_stop bounded names walks'⟩ }

end Config

theorem Machine.taken_of_execute {m : Machine} {text : String} {number : Int} {s : Step}
    (h : (m.execute text number).2 = .ok (some s)) : ∃ i,
      Instruction.parse m.config.comments number text = some i ∧
        Step.Taken m.config.width m.registers i s := by
  rcases Processor.cases_of_execute (Prod.ext rfl h) with ⟨blank, -⟩ | ⟨i, step, found, parse, taken, -⟩
  · cases blank
  · cases found
    exact ⟨i, parse, taken⟩

/-- In bounded words what becomes of a line is settled by the line, its number and the names of the
registers: a run says of each line what the line comes to on its own, stops where the first of them
fails, and no sum overflows; and no values of the registers change what becomes of a line. -/
theorem Machine.failure_is_static (config : Config) (count : Nat) (two_le : 2 ≤ count)
    (width : config.width = .bits count two_le) :
    (∀ source report, (config.withPolicy .skip).run source = .ok report →
      report.Static config source) ∧
    ∀ (m m' : Machine) (text : String) (number : Int) (s s' : Step),
      m.config = config → m'.config = config → m.registers.names = m'.registers.names →
      (m.execute text number).2 = .ok (some s) → (m'.execute text number).2 = .ok (some s') →
      s.static = s'.static ∧
        ∀ f, s.failure? = some f → ∀ register bits, f.fault ≠ .overflow register bits := by
  have bounded : config.width ≠ .unbounded := by
    rw [width]
    exact Width.noConfusion
  constructor
  · exact fun source report h => Config.static_of_report bounded h
  · intro m m' text number s s' hm hm' names h h'
    obtain ⟨i, parse, taken⟩ := taken_of_execute h
    obtain ⟨i', parse', taken'⟩ := taken_of_execute h'
    rw [hm] at parse taken
    rw [hm', parse] at parse'
    rw [hm'] at taken'
    cases parse'
    exact ⟨taken.static_eq bounded names taken', fun f hf => taken.not_overflow bounded hf⟩

theorem Machine.failure_of_fiveLines :
    (∃ report, Config.default.run fiveLines = .ok report ∧ report.Static .default fiveLines) ∧
    ∃ seven zero : Step,
      (((ofConfig .default).run "LOAD R1 7").1.execute "ADD R1 R1" 3).2 = .ok (some seven) ∧
      ((ofConfig .default).execute "ADD R1 R1" 3).2 = .ok (some zero) ∧
      seven ≠ zero ∧ seven.static = zero.static := by
  obtain ⟨runs, lines⟩ := failure_is_static .default 32 (by decide) rfl
  obtain ⟨report, run⟩ := exists_report (m := ofConfig .default) rfl Config.writable_default
    fiveLines
  have seven : (((ofConfig .default).run "LOAD R1 7").1.execute "ADD R1 R1" 3).2 =
      .ok (some ⟨⟨"ADD", ["R1", "R1"], 3, "ADD R1 R1"⟩, .done (.add "R1" "R1" 14)⟩) := by
    decide +kernel
  have zero : ((ofConfig .default).execute "ADD R1 R1" 3).2 =
      .ok (some ⟨⟨"ADD", ["R1", "R1"], 3, "ADD R1 R1"⟩, .done (.add "R1" "R1" 0)⟩) := by
    decide +kernel
  have same := lines _ _ _ _ _ _ (config_run _ _) rfl (by decide +kernel) seven zero
  exact ⟨⟨report, run, runs _ report run⟩, _, _, seven, zero, by decide, same.1⟩

end RegisterMachine
