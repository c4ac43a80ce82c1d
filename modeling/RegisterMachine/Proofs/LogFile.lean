import RegisterMachine.Proofs.ExitCodes

/-! What log files receive. A process carries out one command line after the other, and a log file
that one of them has opened is closed by the next. So every log file holds what was in it and then,
call by call, all records of those calls that opened it. -/
namespace RegisterMachine

namespace Files
variable {f g : Files} {place : Location} {path : String}

def content (f : Files) (place : Location) : ByteArray :=
  match f.find? place with
  | some (.file bytes) => bytes
  | _ => .empty

theorem content_put_ne {other : Location} (h : other ≠ place) (e : Entry) :
    (f.put place e).content other = f.content other := by
  rw [content, find?_put_ne f h, content]

theorem content_put_self (ne : place ≠ []) (bytes : ByteArray) :
    (f.put place (.file bytes)).content place = bytes := by
  rw [content, find?_put_self f ne]

theorem content_appendAt_self (ne : place ≠ []) (bytes : ByteArray) :
    (f.appendAt place bytes).content place = f.content place ++ bytes := by
  unfold appendAt
  split
  next old found => rw [content_put_self ne, content, found]
  next absent =>
    rw [content_put_self ne, content]
    split
    next old found => exact absurd found (absent old)
    · rw [ByteArray.empty_append]

theorem content_appendAt_ne {other : Location} (h : other ≠ place) (bytes : ByteArray) :
    (f.appendAt place bytes).content other = f.content other := by
  unfold appendAt
  split <;> exact content_put_ne h _

theorem content_makeFolder (h : f.makeFolder path = .ok g) (other : Location) :
    g.content other = f.content other := by
  unfold makeFolder at h
  split at h
  · cases h
  · split at h
    · cases h
    next place located =>
      split at h
      · cases h
      next free =>
        cases h
        have missing : f.find? place = none := by simpa using free
        have ne : place ≠ [] := by
          rintro rfl
          cases missing
        by_cases same : other = place
        · rw [same, content, find?_put_self f ne, content, missing]
        · exact content_put_ne same _

theorem content_ensureFolder (h : f.ensureFolder path = .ok g) (other : Location) :
    g.content other = f.content other := by
  unfold ensureFolder at h
  split at h
  next made =>
    cases h
    exact content_makeFolder made other
  · cases h
  · split at h
    · cases h
      rfl
    · cases h

theorem content_ensureFolders (f : Files) (root : String) (names : List String) (other : Location) :
    (f.ensureFolders root names).1.content other = f.content other := by
  induction names with
  | nil =>
    unfold ensureFolders
    split
    next ensured => exact content_ensureFolder ensured other
    · rfl
  | cons name above ih =>
    unfold ensureFolders
    simp only
    split
    next ensured => exact content_ensureFolder ensured other
    · split
      next failed =>
        rw [failed] at ih
        exact ih
      next made =>
        rw [made] at ih
        split
        next ensured => exact (content_ensureFolder ensured other).trans ih
        · exact ih
    · rfl

end Files

namespace Console
variable {c d e : Console} {place : Location} {records more : List Record}

def linesAt (c : Console) (place : Location) (records : List Record) : String :=
  if c.log = some place then c.stamped records else ""

theorem stamped_append (clock : d.clock = c.clock)
    (journal : d.journal.toList = c.journal.toList ++ records) (more : List Record) :
    c.stamped (records ++ more) = c.stamped records ++ d.stamped more := by
  have size : d.journal.size = c.journal.size + records.length := by
    rw [← Array.length_toList, journal, List.length_append, Array.length_toList]
  simp only [stamped, List.mapIdx_append, String.join_append, clock, size, Nat.add_assoc,
    Nat.add_comm records.length]

@[simp] theorem linesAt_nil (c : Console) (place : Location) : c.linesAt place [] = "" := by
  unfold linesAt
  split <;> rfl

/-- One console is what the other comes to when records are kept, and the file at a place has
received these records, if it is the log file, and else nothing. -/
structure Keeps (place : Location) (records : List Record) (c d : Console) : Prop where
  log : d.log = c.log
  clock : d.clock = c.clock
  journal : d.journal.toList = c.journal.toList ++ records
  content : d.files.content place =
    c.files.content place ++ (c.linesAt place records).toUTF8

namespace Keeps

theorem of_content (log : d.log = c.log) (clock : d.clock = c.clock)
    (journal : d.journal = c.journal) (content : d.files.content place = c.files.content place) :
    Keeps place [] c d where
  log := log
  clock := clock
  journal := by rw [journal, List.append_nil]
  content := by
    rw [content, linesAt_nil]
    exact ByteArray.append_empty.symm

theorem refl (place : Location) (c : Console) : Keeps place [] c c :=
  of_content rfl rfl rfl rfl

theorem linesAt_append (h : Keeps place records c d) (more : List Record) :
    c.linesAt place (records ++ more) = c.linesAt place records ++ d.linesAt place more := by
  unfold linesAt
  rw [h.log]
  split
  · exact stamped_append h.clock h.journal more
  · rfl

theorem trans (first : Keeps place records c d) (second : Keeps place more d e) :
    Keeps place (records ++ more) c e where
  log := second.log.trans first.log
  clock := second.clock.trans first.clock
  journal := by rw [second.journal, first.journal, List.append_assoc]
  content := by
    rw [second.content, first.content, first.linesAt_append, ByteArray.append_assoc]
    simp only [String.toUTF8_eq_toByteArray, String.toByteArray_append]

end Keeps

theorem keeps_say (c : Console) (place : Location) (text : String) : Keeps place [] c (c.say text) :=
  .of_content rfl rfl rfl rfl

theorem keeps_complain (c : Console) (place : Location) (text : String) :
    Keeps place [] c (c.complain text) :=
  .of_content rfl rfl rfl rfl

theorem keeps_note (rooted : c.log ≠ some []) (place : Location) (records : List Record) :
    Keeps place records c (c.note records) where
  log := rfl
  clock := rfl
  journal := by simp [note]
  content := by
    cases logged : c.log with
    | none =>
      simp [note, linesAt, logged]
    | some there =>
      have ne : there ≠ [] := by
        rintro rfl
        exact rooted logged
      simp only [note, linesAt, logged]
      by_cases same : place = there
      · rw [same, Files.content_appendAt_self ne, if_pos rfl]
      · rw [Files.content_appendAt_ne same, if_neg (by simpa using Ne.symm same)]
        exact ByteArray.append_empty.symm

def logRecord (name : String) : Record :=
  ⟨.debug, .program, "setup_logging:59", "Log file: " ++ (Files.Path.ofString name).text⟩

theorem Opening.rooted {name : String} {outcome : Console × Except Failure Unit}
    (h : c.Opening name outcome) : outcome.1.log ≠ some [] := by
  cases h with
  | unnamed => exact nofun
  | folderless => exact nofun
  | closed => exact nofun
  | opened named made free =>
    rintro ⟨⟩
    exact Files.ne_nil_of_destination free rfl

/-- Where the log file of a given name is, if there is one: the name leads there once the folders
above it are made. -/
def logPlace? (c : Console) (name : String) : Option Location :=
  let path := Files.Path.ofString name
  if name = "" then none
  else match c.files.ensureFolders path.root path.parent.names.reverse with
    | (files, .ok ()) => (files.destination (path.absolute files.home)).toOption
    | (_, .error _) => none

theorem Opening.log_eq {name : String} {outcome : Console × Except Failure Unit}
    (h : c.Opening name outcome) : outcome.1.log = c.logPlace? name := by
  cases h with
  | unnamed unnamed => exact (if_pos unnamed).symm
  | folderless named unmade =>
    rw [logPlace?]
    simp only [if_neg named, unmade]
  | closed named made refused =>
    rw [logPlace?]
    simp only [if_neg named, made, refused]
    rfl
  | opened named made free =>
    rw [logPlace?]
    simp only [if_neg named, made, free]
    rfl

theorem Opening.keeps {name : String} {outcome : Console × Except Failure Unit}
    (h : c.Opening name outcome) (place : Location) :
    Keeps place (if outcome.1.log = none then [] else [logRecord name])
      { c with log := outcome.1.log } outcome.1 := by
  cases h with
  | unnamed => exact .refl _ _
  | @folderless files e named unmade =>
    refine .of_content rfl rfl rfl ?_
    rw [← Files.content_ensureFolders c.files, unmade]
  | @closed files e named made refused =>
    refine .of_content rfl rfl rfl ?_
    rw [← Files.content_ensureFolders c.files, made]
  | @opened files there named made free =>
    have ne : there ≠ [] := Files.ne_nil_of_destination free
    have made : Keeps place [] { c with log := some there }
        { c with files := files.appendAt there .empty, log := some there } := by
      refine .of_content rfl rfl rfl ?_
      rw [← Files.content_ensureFolders c.files, made]
      by_cases same : place = there
      · rw [same, Files.content_appendAt_self ne, ByteArray.append_empty]
      · exact Files.content_appendAt_ne same _
    exact made.trans (keeps_note (fun root => ne (Option.some.inj root)) place _)

end Console

namespace CommandLine
variable {c d : Console} {o : Options} {config : Config} {name source text file : String}
  {words : List String} {place : Location} {report : Report}

def programRecord (config : Config) (name source : String) : Record :=
  ⟨.debug, .commandLine, "main:136", "program: " ++ name ++ " (" ++ source.length.repr ++
    " bytes), registers: " ++ ", ".intercalate config.names⟩

def failureRecords (report : Report) : List Record :=
  if report.failures = [] then []
  else [⟨.warning, .commandLine, "main:152", report.failures.length.repr ++ " line(s) failed"⟩]

/-- What a command line records once its log file is open: what there is to say of a run or a
session, and nothing if it comes to neither. -/
inductive Emits (c : Console) (words : List String) (o : Options) : List Record → Prop
  | sample (sample : o.sample = true) : Emits c words o []
  | refused (refuses : Refuses c words) : Emits c words o []
  | path {config : Config} {name : String} (reads : Reads c words o config name)
      (null : '\x00' ∈ name.toList) : Emits c words o []
  | session {config : Config} (ready : Ready c words o config) (interactive : o.interactive = true) :
      Emits c words o ((Session.ofConfig config).hold (Text.Utf8.readLines c.input).1
        (Text.Utf8.readLines c.input).2).session.machine.journal.toList
  | dump {config : Config} {name source : String} (reads : Reads c words o config name)
      (fetched : (opened c o).1.fetch name = .ok (.ok source)) (dump : o.dump = true) :
      Emits c words o []
  | broken {config : Config} {name source : String} {e : Console.Failure}
      (reads : Reads c words o config name)
      (fetched : (opened c o).1.fetch name = .ok (.ok source)) (dump : o.dump = false)
      (escaped : (run c words).2 = .error e) : Emits c words o
        (programRecord config name source :: ((Machine.ofConfig config).run source).1.journal.toList)
  | ended {config : Config} {name source : String} {report : Report} {code : ExitCode}
      (reads : Reads c words o config name)
      (fetched : (opened c o).1.fetch name = .ok (.ok source)) (dump : o.dump = false)
      (ran : config.run source = .ok report) (ended : (run c words).2 = .ok code) :
      Emits c words o (programRecord config name source ::
        ((Machine.ofConfig config).run source).1.journal.toList ++ failureRecords report)

theorem keeps_recorded (rooted : c.log ≠ some []) (place : Location) (config : Config)
    (name source : String) : Console.Keeps place
      (programRecord config name source :: ((Machine.ofConfig config).run source).1.journal.toList)
      c (recorded c config name source) :=
  (Console.keeps_note rooted place [_]).trans (Console.keeps_note (c := c.note _) rooted place _)

theorem keeps_warned (rooted : c.log ≠ some []) (place : Location) (report : Report) :
    Console.Keeps place (failureRecords report) c (warned c report) := by
  unfold warned failureRecords
  simp only [List.length_eq_zero_iff]
  split
  · exact .refl place c
  · exact Console.keeps_note rooted place _

theorem keeps_deliver (spared : c.files.destination file ≠ .ok place)
    (delivered : deliver c text file = .ok d) : Console.Keeps place [] c d := by
  unfold deliver at delivered
  split at delivered
  · cases delivered
    exact c.keeps_say place text
  · split at delivered
    next files written =>
      cases delivered
      obtain ⟨there, free, rfl⟩ : ∃ there, c.files.destination file = .ok there ∧
          c.files.put there (.file text.toUTF8) = files := by
        unfold Files.write at written
        cases free : c.files.destination file with
        | error e => simp [free, Except.map] at written
        | ok there => exact ⟨there, rfl, by simpa [free, Except.map] using written⟩
      refine .of_content rfl rfl rfl (Files.content_put_ne (fun same => ?_) _)
      exact spared (same ▸ free)
    · cases delivered

theorem runProgram_cases (c : Console) (o : Options) (config : Config) (name source : String) :
    (∃ e, runProgram c o config name source = (recorded c config name source, .error e)) ∨
      ∃ report text d, config.run source = .ok report ∧
        deliver (recorded c config name source) text o.target = .ok d ∧
        runProgram c o config name source = (warned d report, .ok (exitCode report)) := by
  cases ran : ((Machine.ofConfig config).run source).2 with
  | error e => exact .inl ⟨.work (.run e), by simp only [runProgram, ran, recorded]⟩
  | ok report =>
    cases shown : reportText ((Machine.ofConfig config).run source).1 report o.showRegisters with
    | error e => exact .inl ⟨.work (.table e), by simp only [runProgram, ran, shown, recorded]⟩
    | ok text =>
      cases delivered : deliver (recorded c config name source) (text ++ "\n") o.target with
      | error e =>
        unfold recorded Options.target at delivered
        exact .inl ⟨e, by simp only [runProgram, ran, shown, delivered, recorded]⟩
      | ok d =>
        refine .inr ⟨report, text ++ "\n", d, ran, delivered, ?_⟩
        unfold recorded Options.target at delivered
        simp only [runProgram, ran, shown, delivered, warned, exitCode]

def Told (place : Location) (c : Console) (words : List String) (o : Options) : Prop :=
  ∃ records, Emits c words o records ∧ Console.Keeps place records (opened c o).1 (run c words).1

theorem rooted_opened (c : Console) (o : Options) : (opened c o).1.log ≠ some [] :=
  (opening c o).rooted

theorem told_of_refuses {text : String} (refuses : Refuses c words)
    (refused : run c words = refuse (opened c o).1 text) : Told place c words o :=
  ⟨[], .refused refuses, refused ▸ Console.keeps_complain _ place text⟩

theorem Reads.keeps_program (reads : Reads c words o config name)
    (fetched : (opened c o).1.fetch name = .ok (.ok source)) (dump : o.dump = false) :
    (∃ e, (run c words).2 = .error e ∧
      ∀ place, (opened c o).1.files.destination o.target ≠ .ok place → Console.Keeps place
        (programRecord config name source :: ((Machine.ofConfig config).run source).1.journal.toList)
        (opened c o).1 (run c words).1) ∨
    ∃ report code, config.run source = .ok report ∧ (run c words).2 = .ok code ∧
      ∀ place, (opened c o).1.files.destination o.target ≠ .ok place → Console.Keeps place
        (programRecord config name source ::
          ((Machine.ofConfig config).run source).1.journal.toList ++ failureRecords report)
        (opened c o).1 (run c words).1 := by
  have rooted := rooted_opened c o
  have kept (place) := keeps_recorded rooted place config name source
  have ran : run c words = runProgram (opened c o).1 o config name source := by
    rw [reads.run_eq, readProgram_of_text fetched dump]
  rcases runProgram_cases (opened c o).1 o config name source with
    ⟨e, escaped⟩ | ⟨report, text, d, reported, delivered, ended⟩
  · rw [escaped] at ran
    rw [ran]
    exact .inl ⟨e, rfl, fun place _ => kept place⟩
  · rw [ended] at ran
    rw [ran]
    refine .inr ⟨report, _, reported, rfl, fun place spared => ?_⟩
    -- The records kept so far have changed no folder, so the trace still goes elsewhere.
    have same := ((noted_recorded (opened c o).1 config name source).alike
      (tidy_opened reads.log)).destination o.target
    have written := keeps_deliver (same ▸ spared) delivered
    have rooted : d.log ≠ some [] := by
      rw [written.log, (kept place).log]
      exact rooted
    have whole := ((kept place).trans written).trans (keeps_warned rooted place report)
    rwa [List.append_nil] at whole

theorem Reads.told_of_run (reads : Reads c words o config name)
    (fetched : (opened c o).1.fetch name = .ok (.ok source)) (dump : o.dump = false)
    (spared : (opened c o).1.files.destination o.target ≠ .ok place) : Told place c words o := by
  rcases reads.keeps_program fetched dump with
    ⟨e, escaped, kept⟩ | ⟨report, code, reported, ended, kept⟩
  · exact ⟨_, .broken reads fetched dump escaped, kept place spared⟩
  · exact ⟨_, .ended reads fetched dump reported ended, kept place spared⟩

theorem Reads.told (reads : Reads c words o config name)
    (spared : (opened c o).1.files.destination o.target ≠ .ok place) : Told place c words o := by
  cases fetched : (opened c o).1.fetch name with
  | error e =>
    refine ⟨[], .path reads (null_of_fetch fetched), ?_⟩
    rw [reads.run_eq, readProgram_of_unfetched fetched]
    exact .refl place _
  | ok text =>
    cases text with
    | error fault =>
      exact told_of_refuses (.unread reads fetched)
        (reads.run_eq.trans (readProgram_of_fault fetched))
    | ok source =>
      cases dump : o.dump with
      | true =>
        refine ⟨[], .dump reads fetched dump, ?_⟩
        rw [reads.run_eq]
        simp only [readProgram, fetched, dump, ↓reduceIte]
        exact Console.keeps_say _ place _
      | false => exact reads.told_of_run fetched dump spared

theorem Ready.told (ready : Ready c words o config)
    (spared : (opened c o).1.files.destination o.target ≠ .ok place) : Told place c words o := by
  cases interactive : o.interactive with
  | true =>
    refine ⟨_, .session ready interactive, ?_⟩
    rw [ready.run_of_interactive interactive]
    exact (Console.keeps_say _ place _).trans
      (Console.keeps_note (c := Console.say _ _) (rooted_opened c o) place _)
  | false =>
    rcases ready.nameless_or_reads interactive with nameless | ⟨name, reads⟩
    · exact told_of_refuses (.nameless ready interactive nameless)
        (ready.run_of_nameless interactive nameless)
    · exact reads.told spared

/-- Whether the trace of a command line goes elsewhere than to a place. -/
def spares (place : Location) (c : Console) (words : List String) : Bool :=
  match Options.ofStrings words with
  | .error _ => true
  | .ok o => (opened c o).1.files.destination o.target ≠ .ok place

def attached (c : Console) (o : Options) : Console :=
  { tuned c o with log := c.logPlace? o.logName }

def shift : List Call := [
  { words := ["p.vm", "--registers", "A,Q", "--log-file", "logs/a.log", "-o", "out.txt"]
    clock := fun n => "9:0" ++ n.repr },
  { words := ["p.vm", "--on-error", "abort"], clock := fun n => "9:1" ++ n.repr },
  { words := ["-i", "--log-file", "b.log"] },
  { words := ["--example", "--log-file", "logs/../logs/a.log"], clock := fun _ => "9:30" }]

end CommandLine

end RegisterMachine
