import RegisterMachine.CommandLine
import RegisterMachine.Proofs.Arguments
import RegisterMachine.Proofs.Course
import RegisterMachine.Proofs.Dialogue
import RegisterMachine.Proofs.FileStore
import RegisterMachine.Proofs.Utf8

/-! From a command line to a trace. What is read of a program is its text with every line end made
a line feed, and a run cannot tell the two apart; what is written is the report of that run, to the
output or to a file, and the exit code is read off its steps. -/
namespace RegisterMachine

namespace Console
variable {c d e : Console}

/-- A log file that has been opened is a file. -/
def Tidy (c : Console) : Prop :=
  ∀ place, c.log = some place → ∃ content, c.files.find? place = some (.file content)

theorem tidy_of_unlogged (h : c.log = none) : c.Tidy := by
  intro place logged
  rw [h] at logged
  cases logged

/-- One console is what the other comes to when records are kept: nothing but the log file changes,
and without one no file at all. -/
structure Noted (c d : Console) : Prop where
  input : d.input = c.input
  output : d.output = c.output
  errors : d.errors = c.errors
  log : d.log = c.log
  files : c.log = none → d.files = c.files
  alike : c.Tidy → c.files.Alike d.files

namespace Noted

theorem refl (c : Console) : c.Noted c :=
  ⟨rfl, rfl, rfl, rfl, fun _ => rfl, fun _ => .refl _⟩

theorem tidy (h : c.Noted d) (tidy : c.Tidy) : d.Tidy := by
  intro place logged
  obtain ⟨content, found⟩ := tidy place (h.log.symm.trans logged)
  have folder := (h.alike tidy).folder place
  have missing := (h.alike tidy).missing place
  rw [found] at folder missing
  cases here : d.files.find? place with
  | none => simp [here] at missing
  | some entry =>
    cases entry with
    | file new => exact ⟨new, rfl⟩
    | folder => simp [here] at folder

theorem trans (first : c.Noted d) (second : d.Noted e) : c.Noted e where
  input := second.input.trans first.input
  output := second.output.trans first.output
  errors := second.errors.trans first.errors
  log := second.log.trans first.log
  files := fun none => (second.files (first.log.trans none)).trans (first.files none)
  alike := fun tidy => (first.alike tidy).trans (second.alike (first.tidy tidy))

end Noted

theorem noted_note (c : Console) (records : List Record) : c.Noted (c.note records) where
  input := rfl
  output := rfl
  errors := rfl
  log := rfl
  files := fun none => by simp only [note, none]
  alike := by
    intro tidy
    simp only [note]
    split
    · exact .refl _
    next place logged =>
      obtain ⟨content, found⟩ := tidy place logged
      exact Files.alike_appendAt found _

/-- All that can come of opening a log file by a name. What was open before is closed in any case. -/
inductive Opening (c : Console) (name : String) : Console × Except Failure Unit → Prop
  | unnamed (unnamed : name = "") : Opening c name ({ c with log := none }, .ok ())
  | folderless {files : Files} {e : Files.Refusal} (named : name ≠ "")
      (unmade : c.files.ensureFolders (Files.Path.ofString name).root
        (Files.Path.ofString name).parent.names.reverse = (files, .error e)) :
      Opening c name ({ c with files, log := none }, .error (.path e))
  | closed {files : Files} {e : Files.Refusal} (named : name ≠ "")
      (made : c.files.ensureFolders (Files.Path.ofString name).root
        (Files.Path.ofString name).parent.names.reverse = (files, .ok ()))
      (refused : files.destination ((Files.Path.ofString name).absolute files.home) = .error e) :
      Opening c name ({ c with files, log := none }, .error (.path e))
  | opened {files : Files} {place : Location} (named : name ≠ "")
      (made : c.files.ensureFolders (Files.Path.ofString name).root
        (Files.Path.ofString name).parent.names.reverse = (files, .ok ()))
      (free : files.destination ((Files.Path.ofString name).absolute files.home) = .ok place) :
      Opening c name ({ c with files := files.appendAt place .empty, log := some place }.note
        [⟨.debug, .program, "setup_logging:59",
          "Log file: " ++ (Files.Path.ofString name).text⟩], .ok ())

theorem opening_openLog (c : Console) (name : String) : c.Opening name (c.openLog name) := by
  unfold openLog
  split
  next unnamed => exact .unnamed unnamed
  next named =>
    simp only
    split
    next files e unmade => exact .folderless named unmade
    next files made =>
      simp only [Files.openAt]
      cases free : files.destination ((Files.Path.ofString name).absolute files.home) with
      | error e => exact .closed named made free
      | ok place => exact .opened named made free

theorem Opening.tidy {name : String} {d : Console} (h : c.Opening name (d, .ok ())) : d.Tidy := by
  cases h with
  | unnamed => exact tidy_of_unlogged rfl
  | opened named made free =>
    apply (noted_note _ _).tidy
    rintro place ⟨⟩
    exact Files.exists_find?_appendAt (Files.ne_nil_of_destination free) _

/-- The bytes that a program is read from: those of the input if its name is a dash, and else those
of the file of that name. -/
def Provides (c : Console) (name : String) (bytes : ByteArray) : Prop :=
  if name = "-" then c.input = bytes else c.files.read name = .ok bytes

theorem Provides.fetch {name : String} {bytes : ByteArray} (h : c.Provides name bytes) :
    c.fetch name = .ok (decode bytes) := by
  unfold Provides at h
  unfold Console.fetch
  split at h
  next dash => rw [if_pos dash, h]
  next file => rw [if_neg file, h]

end Console

namespace CommandLine
variable {c d : Console} {o : Options} {config : Config} {name source text : String}

def Options.level (o : Options) : Level := if o.verbose then .debug else .warning

def Options.logName (o : Options) : String := (o.logFile.map Argument.text).getD ""

def Options.target (o : Options) : String := (o.output.map Argument.text).getD ""

def tuned (c : Console) (o : Options) : Console := { c with threshold := o.level }

def opened (c : Console) (o : Options) : Console × Except Console.Failure Unit :=
  (tuned c o).openLog o.logName

theorem openLog_eq {outcome : Except Console.Failure Unit} (h : (opened c o).2 = outcome) :
    Console.openLog { c with threshold := if o.verbose then .debug else .warning }
      ((o.logFile.map Argument.text).getD "") = ((opened c o).1, outcome) := by
  have pair : opened c o = ((opened c o).1, outcome) := Prod.ext rfl h
  exact pair

section
variable (log : (opened c o).2 = .ok ())
include log

theorem obey_of_sample (sample : o.sample = true) :
    obey c o = Outcome.stage ((opened c o).1.say Program.sample, .ok .success) := by
  simp only [obey, openLog_eq log, sample, ↓reduceIte, Outcome.stage]

theorem obey_of_accepted (sample : o.sample = false) (accepted : o.config = .ok config) :
    obey c o = work (opened c o).1 o config := by
  simp only [obey, openLog_eq log, sample, accepted, Bool.false_eq_true, ↓reduceIte]

end

theorem work_of_named (interactive : o.interactive = false) (named : o.program = some name)
    (nonempty : name ≠ "") : work c o config = (readProgram c o config name).stage := by
  unfold work
  simp only [interactive, named, Bool.false_eq_true, ↓reduceIte]

theorem readProgram_of_text (fetched : c.fetch name = .ok (.ok text)) (dump : o.dump = false) :
    readProgram c o config name = runProgram c o config name text := by
  unfold readProgram
  simp only [fetched, dump, Bool.false_eq_true, ↓reduceIte]

theorem run_of_stage {words : List String} {outcome : Outcome} (h : start c words = outcome.stage) :
    run c words = outcome := by
  simp only [run, h, Outcome.stage]

theorem start_of_parsed {words : List String} (parsed : Options.ofStrings words = .ok o) :
    start c words = obey c o := by
  simp only [start, parsed]

def printed (report : Report) (table : String) (showRegisters : Bool) : String :=
  report.text ++ (if showRegisters then "\n\n" ++ table else "") ++ "\n"

def exitCode (report : Report) : ExitCode := if report.ok then .success else .failed

def recorded (c : Console) (config : Config) (name source : String) : Console :=
  (c.note [⟨.debug, .commandLine, "main:136", "program: " ++ name ++ " (" ++ source.length.repr ++
    " bytes), registers: " ++ ", ".intercalate config.names⟩]).note
      ((Machine.ofConfig config).run source).1.journal.toList

def warned (c : Console) (report : Report) : Console :=
  if report.failures.length = 0 then c
  else c.note
    [⟨.warning, .commandLine, "main:152", report.failures.length.repr ++ " line(s) failed"⟩]

theorem noted_recorded (c : Console) (config : Config) (name source : String) :
    c.Noted (recorded c config name source) :=
  (c.noted_note _).trans (Console.noted_note _ _)

section
variable {report : Report} {table : String} (ran : config.run source = .ok report)
  (shown : report.registers.table = .ok table)
include ran shown

theorem reportText_of_table (showRegisters : Bool) :
    reportText ((Machine.ofConfig config).run source).1 report showRegisters =
      .ok (report.text ++ if showRegisters then "\n\n" ++ table else "") := by
  have registers : ((Machine.ofConfig config).run source).1.registers = report.registers :=
    Machine.registers_of_report ran
  rw [reportText, registers, shown]
  cases showRegisters with
  | true => simp [Except.map, String.append_assoc]
  | false => simp

theorem runProgram_of_delivered (delivered : deliver (recorded c config name source)
      (printed report table o.showRegisters) o.target = .ok d) :
    runProgram c o config name source = (warned d report, .ok (exitCode report)) := by
  have ended : ((Machine.ofConfig config).run source).2 = .ok report := ran
  unfold recorded printed Options.target at delivered
  simp only [runProgram, ended, reportText_of_table ran shown, delivered, warned, exitCode]

theorem runProgram_of_undelivered {e : Console.Failure} (undelivered :
      deliver (recorded c config name source) (printed report table o.showRegisters) o.target =
        .error e) :
    runProgram c o config name source = (recorded c config name source, .error e) := by
  have ended : ((Machine.ofConfig config).run source).2 = .ok report := ran
  unfold recorded printed Options.target at undelivered
  simp only [runProgram, ended, reportText_of_table ran shown, undelivered, recorded]

end

theorem exists_report_and_table (writable : config.width.Writable) (source : String) :
    ∃ report table, config.run source = .ok report ∧ report.registers.table = .ok table := by
  have serves : (Machine.ofConfig config).Serves config := Machine.serves_ofConfig config
  obtain ⟨report, ran⟩ := serves.exists_report writable source
  obtain ⟨table, shown⟩ := (serves.call (.run source)).exists_table writable
  rw [Machine.call, Machine.registers_of_report ran] at shown
  exact ⟨report, table, ran, shown⟩

theorem deliver_nameless (c : Console) (text : String) : deliver c text "" = .ok (c.say text) := rfl

theorem deliver_of_destination {file : String} {place : Location}
    (h : c.files.destination file = .ok place) :
    deliver c text file = .ok { c with files := c.files.put place (.file text.toUTF8) } := by
  have named : file ≠ "" := by
    rintro rfl
    have located := (Files.destination_eq_ok h).2.1
    simp [Files.locate] at located
  simp only [deliver, if_neg named, Files.write, h, Except.map]

/-- Every way to end a line; the third line fails, so the last is not reached. -/
def threeEnds : String := "LOAD A 5\r\nADD A A\rADD A Q\nPRINT A"

def bytePair : Config where
  names := ["A", "B"]
  width := .bits 8 (by decide)
  policy := .abort
  comments := true
  names_ne_nil := by simp
  names_nodup := by simp
  names_valid := by simp [isRegisterName]; decide

def desk : Console where
  files := { home := ["w"], entries := [(["w"], .folder), (["w", "p.vm"], .file threeEnds.toUTF8)] }
  input := .empty
  clock := fun _ => ""

end CommandLine
end RegisterMachine
