import Mathlib.Data.List.Forall2
import RegisterMachine.Proofs.Account
import RegisterMachine.Proofs.LogFile

/-! Silent steps. There is a record of a step that fails, of one with an unknown opcode and of one
with operands to spare, but a step that merely does what it is asked leaves none. So the records of
a run follow its steps in order and leave out the silent ones, and neither showing all records nor
keeping them in a log file brings those back. -/
namespace RegisterMachine

/-- All that was asked for is done, and no operand is left over. -/
def Step.silent (s : Step) : Bool := s.outcome = .done ∧ s.instruction.extra = []

/-- What is said of one step: where and why it failed, or else what there is to remark of it. -/
inductive Step.Logs (s : Step) : Record → Prop
  | failed {f : LineFault} (failed : s.failure? = some f) (line : f.line = s.line)
      (text : f.text = s.instruction.text) : Logs s f.warning
  | remarked (remarkable : s.remarkable = true) : Logs s s.remark

/-- The records of the processor are one for each step that is not silent, in the order of the
steps. -/
structure Report.LoggedBy (r : Report) (records : List Record) : Prop where
  told : List.Forall₂ Step.Logs (r.steps.filter fun s => !s.silent)
    (records.filter (·.channel = .processor))
  /-- There are as many records as steps only if no step is silent. -/
  whole_iff : r.steps.length ≤ (records.filter (·.channel = .processor)).length ↔
    ∀ s ∈ r.steps, s.silent = false

theorem forall₂_filterMap {α β : Type} {R : α → β → Prop} {f : α → Option β} {p : α → Bool}
    {l : List α} (h : ∀ x ∈ l,
      (f x = none ∧ p x = false) ∨ ∃ y, f x = some y ∧ p x = true ∧ R x y) :
    List.Forall₂ R (l.filter p) (l.filterMap f) := by
  induction l with
  | nil => exact .nil
  | cons x l ih =>
    obtain ⟨here, later⟩ := List.forall_mem_cons.mp h
    rcases here with ⟨none, out⟩ | ⟨y, some, kept, related⟩
    · rw [List.filterMap_cons_none none, List.filter_cons_of_neg (by simp [out])]
      exact ih later
    · rw [List.filterMap_cons_some some, List.filter_cons_of_pos kept]
      exact .cons related (ih later)

theorem Step.silent_eq_false_iff (s : Step) :
    s.silent = false ↔ s.failed = true ∨ s.remarkable = true := by
  obtain ⟨i, verdict⟩ := s
  cases verdict with
  | done effect => simp [silent, remarkable, failed, failure?, outcome]
  | unknownOpcode => simp [silent, remarkable, outcome]
  | failed failure => simp [silent, failed, failure?, outcome]

theorem Step.record?_of_silent {s : Step} (silent : s.silent = true) : s.record? = none := by
  obtain ⟨i, verdict⟩ := s
  cases verdict with
  | done effect =>
    have none_left : i.extra = [] := by simpa [Step.silent, outcome] using silent
    simp only [record?, none_left, ↓reduceIte]
  | unknownOpcode => simp [Step.silent, outcome] at silent
  | failed failure => simp [Step.silent, outcome] at silent

theorem Step.record?_of_remarkable {s : Step} (h : s.remarkable = true) :
    s.record? = some s.remark := by
  have debug := s.record?_debug
  rw [Option.guard_eq_some_iff.mpr ⟨rfl, h⟩] at debug
  exact (Option.filter_eq_some_iff.mp debug).1

namespace Report
variable {r : Report} {records more : List Record}

theorem LoggedBy.of_told (told : List.Forall₂ Step.Logs (r.steps.filter fun s => !s.silent)
    (records.filter (·.channel = .processor))) : r.LoggedBy records where
  told := told
  whole_iff := by
    have fewer := List.length_filter_le (fun s : Step => !s.silent) r.steps
    rw [← told.length_eq, fewer.ge_iff_eq, List.length_filter_eq_length_iff]
    simp only [Bool.not_eq_true']

theorem LoggedBy.of_filter_eq (h : r.LoggedBy records)
    (same : more.filter (·.channel = .processor) = records.filter (·.channel = .processor)) :
    r.LoggedBy more :=
  .of_told (same ▸ h.told)

end Report

namespace Machine
variable {m : Machine} {source : String} {steps : List Step} {status : Status} {report : Report}

theorem Walks.logs (walks : m.Walks source steps (.finished status)) :
    List.Forall₂ Step.Logs (steps.filter fun s => !s.silent) (steps.filterMap Step.record?) := by
  refine forall₂_filterMap fun s hs => ?_
  cases silent : s.silent with
  | true => exact .inl ⟨Step.record?_of_silent silent, rfl⟩
  | false =>
    refine .inr ?_
    rcases s.silent_eq_false_iff.mp silent with failed | remarkable
    · obtain ⟨f, hf⟩ := Step.exists_failure failed
      obtain ⟨line, text, -⟩ := walks.placed s hs f hf
      exact ⟨_, walks.record?_of_failure hs hf, rfl, .failed hf line text⟩
    · exact ⟨_, Step.record?_of_remarkable remarkable, rfl, .remarked remarkable⟩

theorem exists_logged (h : (m.run source).2 = .ok report) : ∃ records,
    (m.run source).1.journal.toList = m.journal.toList ++ records ∧ report.LoggedBy records := by
  obtain ⟨steps, status, idle, walks, rfl⟩ := walks_of_report h
  have processor : (steps.filterMap Step.record?).filter (·.channel = .processor) =
      steps.filterMap Step.record? := by
    rw [List.filter_eq_self]
    intro record said
    exact decide_eq_true (walks.accounted.processor record said).1
  have logged : (Report.ofSteps m.registers.reset steps status).LoggedBy
      (steps.filterMap Step.record?) := by
    refine .of_told ?_
    rw [processor]
    exact walks.logs
  refine ⟨_, (journal_run idle walks).trans (List.append_assoc _ _ _), logged.of_filter_eq ?_⟩
  simp

end Machine

namespace CommandLine
variable {c d : Console} {words : List String} {o : Options} {config : Config}
  {name source : String} {report : Report}

theorem threshold_opened (c : Console) (o : Options) : (opened c o).1.threshold = o.level := by
  have opening := opening c o
  generalize opened c o = outcome at opening
  cases opening <;> rfl

theorem threshold_warned (c : Console) (report : Report) :
    (warned c report).threshold = c.threshold := by
  unfold warned
  split <;> rfl

theorem threshold_deliver {text file : String} (h : deliver c text file = .ok d) :
    d.threshold = c.threshold := by
  unfold deliver at h
  split at h
  · cases h
    rfl
  · split at h
    · cases h
      rfl
    · cases h

theorem threshold_runProgram (c : Console) (o : Options) (config : Config) (name source : String) :
    (runProgram c o config name source).1.threshold = c.threshold := by
  rcases runProgram_cases c o config name source with
    ⟨e, escaped⟩ | ⟨report, text, d, -, delivered, ended⟩
  · rw [escaped]
    rfl
  · rw [ended, threshold_warned, threshold_deliver delivered]
    rfl

theorem shown_of_debug (h : c.threshold = .debug) : c.shown = c.journal.toList := by
  rw [Console.shown, h, List.filter_eq_self]
  intro record _
  exact decide_eq_true (Nat.zero_le _)

theorem Reads.shown_eq (reads : Reads c words o config name)
    (fetched : (opened c o).1.fetch name = .ok (.ok source)) (dump : o.dump = false)
    (verbose : o.verbose = true) : (run c words).1.shown = (run c words).1.journal.toList := by
  apply shown_of_debug
  rw [reads.run_eq, readProgram_of_text fetched dump, threshold_runProgram, threshold_opened,
    Options.level, if_pos verbose]

/-- A command line that runs a program records what is logged of the run, and more that is not of
the processor. A place that it writes no trace to receives that if its log file is there. -/
theorem Reads.exists_logged (reads : Reads c words o config name)
    (fetched : (opened c o).1.fetch name = .ok (.ok source)) (dump : o.dump = false)
    (ran : config.run source = .ok report) : ∃ records, report.LoggedBy records ∧
      ∀ place, (opened c o).1.files.destination o.target ≠ .ok place →
        Console.Keeps place records (attached c o) (run c words).1 := by
  obtain ⟨told, journal, logged⟩ := Machine.exists_logged ran
  obtain ⟨more, others, kept⟩ : ∃ more : List Record, (∀ r ∈ more, r.channel ≠ .processor) ∧
      ∀ place, (opened c o).1.files.destination o.target ≠ .ok place → Console.Keeps place
        (programRecord config name source ::
          ((Machine.ofConfig config).run source).1.journal.toList ++ more)
        (opened c o).1 (run c words).1 := by
    rcases reads.keeps_program fetched dump with ⟨e, -, kept⟩ | ⟨report, code, -, -, kept⟩
    · exact ⟨[], nofun, by simpa using kept⟩
    · refine ⟨failureRecords report, ?_, kept⟩
      unfold failureRecords
      split <;> simp
  have first (place) := (opening c o).keeps place
  rw [(opening c o).log_eq] at first
  refine ⟨_, logged.of_filter_eq ?_, fun place spared => (first place).trans (kept place spared)⟩
  have none_more : more.filter (·.channel = .processor) = [] := by simpa using others
  have none_first : (if (tuned c o).logPlace? o.logName = none then [] else
      [Console.logRecord o.logName]).filter (·.channel = .processor) = [] := by
    split <;> rfl
  rw [journal]
  simp [none_more, none_first, programRecord, Machine.ofConfig, Processor.ofConfig]

/-- The steps of a run that gives a report are told of in the journal, one by one and in order,
except for the silent ones. What a command line records of such a run tells of the steps in the same
way; all of it is shown if asked for, and put into the log file if there is one. -/
theorem steps_are_logged_unless_silent (source : String) (report : Report) :
    (∀ m : Machine, (m.run source).2 = .ok report →
      ∃ records, (m.run source).1.journal.toList = m.journal.toList ++ records ∧
        report.LoggedBy records) ∧
    ∀ (c : Console) (words : List String) (o : Options) (config : Config) (name : String),
      Reads c words o config name → (opened c o).1.fetch name = .ok (.ok source) →
      o.dump = false → config.run source = .ok report →
      ∃ records, report.LoggedBy records ∧
        (run c words).1.journal.toList = c.journal.toList ++ records ∧
        (o.verbose = true → (run c words).1.shown = c.journal.toList ++ records) ∧
        ∀ place, c.logPlace? o.logName = some place → spares place c words = true →
          (run c words).1.files.content place =
            c.files.content place ++ (c.stamped records).toUTF8 := by
  refine ⟨fun m => Machine.exists_logged, ?_⟩
  intro c words o config name reads fetched dump ran
  obtain ⟨records, logged, kept⟩ := reads.exists_logged fetched dump ran
  -- The journal does not depend on the place, and no trace is ever written to the root.
  have journal : (run c words).1.journal.toList = c.journal.toList ++ records :=
    (kept [] fun free => Files.ne_nil_of_destination free rfl).journal
  refine ⟨records, logged, journal, fun verbose => ?_, fun place opens spared => ?_⟩
  · rw [reads.shown_eq fetched dump verbose, journal]
  · have spared : (opened c o).1.files.destination o.target ≠ .ok place := by
      simpa [spares, reads.parsed] using spared
    have opens : (attached c o).log = some place := opens
    rw [(kept place spared).content, Console.linesAt, if_pos opens]
    rfl

def loggedWords : List String := ["p.vm", "--registers", "A,B", "--word-bits", "8", "--on-error",
  "abort", "--verbose", "--log-file", "logs/steps.log"]

def loggedOptions : Options where
  program := some "p.vm"
  registers := some (.word "A,B")
  wordBits := some (.word "8")
  policy := some .abort
  verbose := true
  logFile := some (.word "logs/steps.log")

theorem steps_logged_at_desk :
    (∃ report, ((Machine.ofConfig .default).run Program.mishap).2 = .ok report ∧
      ∃ records, ((Machine.ofConfig .default).run Program.mishap).1.journal.toList = [] ++ records ∧
        report.LoggedBy records ∧ report.steps.length = 4 ∧ ∀ s ∈ report.steps, s.silent = false) ∧
    ∃ report, Reads desk loggedWords loggedOptions bytePair "p.vm" ∧
      (opened desk loggedOptions).1.fetch "p.vm" = .ok (.ok (Text.unifyEnds threeEnds)) ∧
      bytePair.run (Text.unifyEnds threeEnds) = .ok report ∧
      ∃ records, report.LoggedBy records ∧ report.steps.length = 3 ∧
        (records.filter (·.channel = .processor)).length = 1 ∧
        (run desk loggedWords).1.shown = [] ++ records ∧
        (run desk loggedWords).1.files.content ["w", "logs", "steps.log"] =
          .empty ++ (desk.stamped records).toUTF8 := by
  constructor
  · have evaluated : ((Machine.ofConfig .default).run Program.mishap).2.toOption.map (fun r =>
        (r.steps.length, r.steps.any Step.silent)) = some (4, false) := by decide +kernel
    obtain ⟨report, ran, shape⟩ := exists_ok_of_map evaluated
    obtain ⟨count, loud⟩ := Prod.mk.inj shape
    obtain ⟨records, journal, logged⟩ := (steps_are_logged_unless_silent _ report).1 _ ran
    exact ⟨report, ran, records, journal, logged, count, by simpa using loud⟩
  · have reads : Reads desk loggedWords loggedOptions bytePair "p.vm" :=
      ⟨⟨by decide +kernel, by decide +kernel, rfl, by decide +kernel⟩, rfl, rfl, by decide⟩
    have fetched : (opened desk loggedOptions).1.fetch "p.vm" =
        .ok (.ok (Text.unifyEnds threeEnds)) := by decide +kernel
    have opens : desk.logPlace? loggedOptions.logName = some ["w", "logs", "steps.log"] := by
      decide +kernel
    have spared : spares ["w", "logs", "steps.log"] desk loggedWords = true := by decide +kernel
    have evaluated : (bytePair.run (Text.unifyEnds threeEnds)).toOption.map (fun r =>
        (r.steps.length, (r.steps.filter fun s => !s.silent).length)) = some (3, 1) := by
      decide +kernel
    obtain ⟨report, ran, shape⟩ := exists_ok_of_map evaluated
    obtain ⟨count, failing⟩ := Prod.mk.inj shape
    obtain ⟨records, logged, -, shown, content⟩ := (steps_are_logged_unless_silent _ report).2 desk
      loggedWords loggedOptions bytePair "p.vm" reads fetched rfl ran
    have one : (records.filter (·.channel = .processor)).length = 1 :=
      logged.told.length_eq.symm.trans failing
    exact ⟨report, reads, fetched, ran, records, logged, count, one, shown rfl,
      content _ opens spared⟩

/-- A step that loads a number is silent, so among the records there is none of it, and showing all
of them shows none. -/
theorem no_record_of_silent_step :
    (Config.default.run "LOAD R1 5").toOption.map (·.steps.length) = some 1 ∧
    ((Machine.ofConfig .default).run "LOAD R1 5").1.journal.toList = [
      ⟨.debug, .machine, "reset:89", "VM reset (R1, R2, R3)"⟩,
      ⟨.info, .machine, "run:118", "run finished: 1 instructions, 0 errors"⟩] ∧
    (run { desk with input := "LOAD R1 5".toUTF8 } ["-", "--verbose"]).1.shown = [
      ⟨.debug, .commandLine, "main:136", "program: - (9 bytes), registers: R1, R2, R3"⟩,
      ⟨.debug, .machine, "reset:89", "VM reset (R1, R2, R3)"⟩,
      ⟨.info, .machine, "run:118", "run finished: 1 instructions, 0 errors"⟩] := by
  decide +kernel

end CommandLine
end RegisterMachine
