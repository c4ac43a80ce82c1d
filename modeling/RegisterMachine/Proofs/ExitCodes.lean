import RegisterMachine.Proofs.Delivery
import RegisterMachine.Proofs.Refusal
import RegisterMachine.Proofs.Script

/-! How a command line ends. It ends with an exit code unless one of four things goes wrong that it
has no answer to: the log file cannot be opened, the program's path holds a null character, the
trace cannot be written to its file, or a session is typed that is no text. All else that can go
wrong is answered with a message. -/
namespace RegisterMachine

namespace Session
variable {c : Config}

theorem exists_outcome_of_quits (writable : c.width.Writable) (prompt : String)
    (broken : Option Text.Utf8.Fault) {lines : List String} (quits : ∃ line ∈ lines, Quits line) :
    ∃ runs, ((ofConfig c prompt).hold lines broken).outcome = .ok runs := by
  have answers : (ofConfig c prompt).Answers (heeded lines) :=
    answers_of_writable (Machine.serves_ofConfig c) writable (stays_of_mem_heeded lines)
  obtain ⟨chunks, pending, _, reached⟩ :=
    answers.converse_append #[] (ofConfig c prompt).greeting broken
  cases unheeded : lines.dropWhile (¬Quits ·) with
  | nil =>
    obtain ⟨line, mem, quit⟩ := quits
    have stays := List.dropWhile_eq_nil_iff.mp unheeded line mem
    simp [quit] at stays
  | cons line more =>
    have held := reached (line :: more)
    rw [← unheeded, heeded_append, unheeded,
      converse_of_quits chunks pending broken (quits_of_unheeded unheeded)] at held
    exact ⟨_, congrArg Transcript.outcome held⟩

theorem outcome_of_stays (writable : c.width.Writable) (prompt : String)
    (broken : Option Text.Utf8.Fault) {lines : List String} (stays : ∀ line ∈ lines, ¬Quits line) :
    ∃ runs, ((ofConfig c prompt).hold lines broken).outcome =
      broken.elim (.ok runs) fun fault => .error (.input fault) := by
  have answers : (ofConfig c prompt).Answers lines :=
    answers_of_writable (Machine.serves_ofConfig c) writable stays
  obtain ⟨chunks, pending, _, reached⟩ :=
    answers.converse_append #[] (ofConfig c prompt).greeting broken
  have held := reached []
  rw [List.append_nil] at held
  refine ⟨((ofConfig c prompt).after lines).runs, ?_⟩
  rw [hold, held]
  cases broken <;> rfl

end Session

namespace CommandLine
variable {c : Console} {words : List String} {o : Options} {config : Config} {name : String}

structure Ready (c : Console) (words : List String) (o : Options) (config : Config) : Prop where
  parsed : Options.ofStrings words = .ok o
  log : (opened c o).2 = .ok ()
  sample : o.sample = false
  accepted : o.config = .ok config

structure Reads (c : Console) (words : List String) (o : Options) (config : Config) (name : String) :
    Prop extends Ready c words o config where
  interactive : o.interactive = false
  named : o.program = some name
  nonempty : name ≠ ""

/-- What goes wrong without an answer. -/
inductive Escapes (c : Console) (words : List String) : Console.Failure → Prop
  | log {o : Options} {e : Console.Failure} (parsed : Options.ofStrings words = .ok o)
      (closed : (opened c o).2 = .error e) : Escapes c words e
  | path {o : Options} {config : Config} {name : String} (reads : Reads c words o config name)
      (null : '\x00' ∈ name.toList) : Escapes c words (.path .nullByte)
  | target {o : Options} {config : Config} {name source : String} {e : Files.Refusal}
      (reads : Reads c words o config name)
      (fetched : (opened c o).1.fetch name = .ok (.ok source)) (dump : o.dump = false)
      (targeted : o.target ≠ "")
      (unwritable : (opened c o).1.files.destination o.target = .error e) :
      Escapes c words (.path e)
  | input {o : Options} {config : Config} {fault : Text.Utf8.Fault}
      (ready : Ready c words o config) (interactive : o.interactive = true)
      (stays : ∀ line ∈ (Text.Utf8.readLines c.input).1, ¬Session.Quits line)
      (undecodable : (Text.Utf8.readLines c.input).2 = some fault) :
      Escapes c words (.work (.input fault))

/-- What is answered with a message: words that make no options, options that make no configuration,
no program to run, or one that cannot be read. -/
inductive Refuses (c : Console) (words : List String) : Prop
  | misused {e : Misuse} (misused : Options.ofStrings words = .error (.misuse e))
  | rejected {o : Options} {reason : Config.Rejection} (parsed : Options.ofStrings words = .ok o)
      (log : (opened c o).2 = .ok ()) (sample : o.sample = false)
      (rejected : o.config = .error (.rejected reason))
  | nameless {o : Options} {config : Config} (ready : Ready c words o config)
      (interactive : o.interactive = false) (nameless : o.program = none ∨ o.program = some "")
  | unread {o : Options} {config : Config} {name : String} {fault : Console.ReadFault}
      (reads : Reads c words o config name)
      (fetched : (opened c o).1.fetch name = .ok (.error fault))

theorem opening (c : Console) (o : Options) : (tuned c o).Opening o.logName (opened c o) :=
  Console.opening_openLog _ _

theorem input_opened (c : Console) (o : Options) : (opened c o).1.input = c.input := by
  have opening := opening c o
  generalize opened c o = outcome at opening
  cases opening <;> rfl

theorem tidy_opened (log : (opened c o).2 = .ok ()) : (opened c o).1.Tidy := by
  have opening := opening c o
  rw [show opened c o = ((opened c o).1, .ok ()) from Prod.ext rfl log] at opening
  exact opening.tidy

theorem null_of_fetch {e : Console.Failure} (h : c.fetch name = .error e) :
    '\x00' ∈ name.toList := by
  by_contra clear
  unfold Console.fetch at h
  split at h
  · cases h
  · split at h
    · cases h
    next refused =>
      have clear : ¬name.toList.contains '\x00' = true := by simpa using clear
      unfold Files.read at refused
      rw [if_neg clear] at refused
      split at refused
      · cases refused
      · split at refused <;> cases refused
    · cases h
    · cases h

theorem Ready.start_eq (ready : Ready c words o config) :
    start c words = work (opened c o).1 o config := by
  rw [start_of_parsed ready.parsed, obey_of_accepted ready.log ready.sample ready.accepted]

theorem Ready.run_of_interactive (ready : Ready c words o config)
    (interactive : o.interactive = true) : run c words = closeSession (opened c o).1
      ((Session.ofConfig config).hold (Text.Utf8.readLines c.input).1
        (Text.Utf8.readLines c.input).2) := by
  have session : start c words = ((opened c o).1, .session config) := by
    rw [ready.start_eq, work, if_pos interactive]
  simp only [run, session, input_opened]

theorem Ready.run_of_nameless (ready : Ready c words o config) (interactive : o.interactive = false)
    (nameless : o.program = none ∨ o.program = some "") : run c words =
      refuse (opened c o).1 (usage ++ "Error: a program file (or '-') is required\n") := by
  apply run_of_stage
  rw [ready.start_eq, work, interactive]
  rcases nameless with none | blank
  · simp only [none, Bool.false_eq_true, ↓reduceIte]
  · simp only [blank, Bool.false_eq_true, ↓reduceIte]

theorem Ready.nameless_or_reads (ready : Ready c words o config)
    (interactive : o.interactive = false) :
    (o.program = none ∨ o.program = some "") ∨ ∃ name, Reads c words o config name := by
  cases named : o.program with
  | none => exact .inl (.inl rfl)
  | some name =>
    by_cases nonempty : name = ""
    · exact .inl (.inr (congrArg some nonempty))
    · exact .inr ⟨name, ready, interactive, named, nonempty⟩

theorem Reads.run_eq (reads : Reads c words o config name) :
    run c words = readProgram (opened c o).1 o config name := by
  apply run_of_stage
  rw [reads.start_eq, work_of_named reads.interactive reads.named reads.nonempty]

theorem readProgram_of_unfetched {e : Console.Failure} (unfetched : c.fetch name = .error e) :
    readProgram c o config name = (c, .error e) := by
  simp only [readProgram, unfetched]

theorem readProgram_of_fault {fault : Console.ReadFault} (fetched : c.fetch name = .ok (.error fault)) :
    readProgram c o config name = refuse c (fault.message name ++ "\n") := by
  simp only [readProgram, fetched]

theorem deliver_of_unwritable {file text : String} {e : Files.Refusal} (targeted : file ≠ "")
    (unwritable : c.files.destination file = .error e) : deliver c text file = .error (.path e) := by
  simp only [deliver, if_neg targeted, Files.write, unwritable, Except.map]

theorem outcome_closeSession (c : Console) (t : Session.Transcript) :
    (closeSession c t).2 = match t.outcome with
      | .ok _ => .ok .success
      | .error reason => .error (.work reason) := rfl

section
variable (widths : ∀ o config, Options.ofStrings words = .ok o → o.config = .ok config →
  config.width.Writable)
include widths

theorem Ready.writable (ready : Ready c words o config) : config.width.Writable :=
  widths o config ready.parsed ready.accepted

theorem Reads.run_of_fetched (reads : Reads c words o config name) {source : String}
    (fetched : (opened c o).1.fetch name = .ok (.ok source)) (dump : o.dump = false) :
    (∀ e, o.target ≠ "" → (opened c o).1.files.destination o.target = .error e →
      (run c words).2 = .error (.path e)) ∧
    ((∀ e, o.target ≠ "" → (opened c o).1.files.destination o.target ≠ .error e) →
      (run c words).2 = .ok .success ∨ (run c words).2 = .ok .failed) := by
  obtain ⟨report, table, ran, shown⟩ :=
    exists_report_and_table (reads.writable widths) source
  have noted := noted_recorded (opened c o).1 config name source
  have same : ∀ file, (opened c o).1.files.destination file =
      (recorded (opened c o).1 config name source).files.destination file :=
    (noted.alike (tidy_opened reads.log)).destination
  rw [reads.run_eq, readProgram_of_text fetched dump]
  constructor
  · intro e targeted unwritable
    rw [runProgram_of_undelivered ran shown (deliver_of_unwritable targeted (same _ ▸ unwritable))]
  · intro free
    obtain ⟨written, delivered⟩ : ∃ written, deliver (recorded (opened c o).1 config name source)
        (printed report table o.showRegisters) o.target = .ok written := by
      by_cases target : o.target = ""
      · exact ⟨_, target ▸ deliver_nameless _ _⟩
      · cases place : (opened c o).1.files.destination o.target with
        | error e => exact absurd place (free e target)
        | ok place' => exact ⟨_, deliver_of_destination ((same _).symm.trans place)⟩
    rw [runProgram_of_delivered ran shown delivered]
    unfold exitCode
    split
    · exact .inl rfl
    · exact .inr rfl

theorem Ready.run_of_session (ready : Ready c words o config) (interactive : o.interactive = true) :
    (∀ fault, (Text.Utf8.readLines c.input).2 = some fault →
      (∀ line ∈ (Text.Utf8.readLines c.input).1, ¬Session.Quits line) →
      (run c words).2 = .error (.work (.input fault))) ∧
    (((Text.Utf8.readLines c.input).2 = none ∨
        ∃ line ∈ (Text.Utf8.readLines c.input).1, Session.Quits line) →
      (run c words).2 = .ok .success) := by
  have writable := ready.writable widths
  rw [ready.run_of_interactive interactive, outcome_closeSession]
  constructor
  · intro fault broken stays
    obtain ⟨runs, outcome⟩ := Session.outcome_of_stays writable Session.defaultPrompt
      (Text.Utf8.readLines c.input).2 stays
    rw [outcome, broken]
    rfl
  · intro ended
    by_cases quits : ∃ line ∈ (Text.Utf8.readLines c.input).1, Session.Quits line
    · obtain ⟨runs, outcome⟩ := Session.exists_outcome_of_quits writable Session.defaultPrompt
        (Text.Utf8.readLines c.input).2 quits
      rw [outcome]
    · have whole := ended.resolve_right quits
      obtain ⟨runs, outcome⟩ := Session.outcome_of_stays writable Session.defaultPrompt
        (Text.Utf8.readLines c.input).2 fun line mem quit => quits ⟨line, mem, quit⟩
      rw [outcome, whole]
      rfl

theorem Reads.run_cases (reads : Reads c words o config name) :
    (∃ e, Escapes c words e) ∨ Refuses c words ∨
      (run c words).2 = .ok .success ∨ (run c words).2 = .ok .failed := by
  cases fetched : (opened c o).1.fetch name with
  | error e => exact .inl ⟨_, .path reads (null_of_fetch fetched)⟩
  | ok text =>
    cases text with
    | error fault => exact .inr (.inl (.unread reads fetched))
    | ok source =>
      cases dump : o.dump with
      | true =>
        refine .inr (.inr (.inl ?_))
        rw [reads.run_eq]
        simp only [readProgram, fetched, dump, ↓reduceIte]
      | false =>
        by_cases unwritable :
            ∃ e, o.target ≠ "" ∧ (opened c o).1.files.destination o.target = .error e
        · obtain ⟨e, targeted, unwritable⟩ := unwritable
          exact .inl ⟨_, .target reads fetched dump targeted unwritable⟩
        · refine .inr (.inr ((reads.run_of_fetched widths fetched dump).2 ?_))
          exact fun e targeted failed => unwritable ⟨e, targeted, failed⟩

theorem Ready.run_cases (ready : Ready c words o config) :
    (∃ e, Escapes c words e) ∨ Refuses c words ∨
      (run c words).2 = .ok .success ∨ (run c words).2 = .ok .failed := by
  cases interactive : o.interactive with
  | true =>
    cases broken : (Text.Utf8.readLines c.input).2 with
    | none =>
      exact .inr (.inr (.inl ((ready.run_of_session widths interactive).2 (.inl broken))))
    | some fault =>
      by_cases quits : ∃ line ∈ (Text.Utf8.readLines c.input).1, Session.Quits line
      · exact .inr (.inr (.inl ((ready.run_of_session widths interactive).2 (.inr quits))))
      · refine .inl ⟨_, .input ready interactive (fun line mem quit => ?_) broken⟩
        exact quits ⟨line, mem, quit⟩
  | false =>
    rcases ready.nameless_or_reads interactive with nameless | ⟨name, reads⟩
    · exact .inr (.inl (.nameless ready interactive nameless))
    · exact reads.run_cases widths

theorem run_cases : (∃ e, Escapes c words e) ∨ Refuses c words ∨
    (run c words).2 = .ok .success ∨ (run c words).2 = .ok .failed := by
  have well {d : Console} (reached : start c words = Outcome.stage (d, .ok .success)) :
      (∃ e, Escapes c words e) ∨ Refuses c words ∨
        (run c words).2 = .ok .success ∨ (run c words).2 = .ok .failed :=
    .inr (.inr (.inl (congrArg Prod.snd (run_of_stage reached))))
  cases parsed : Options.ofStrings words with
  | error stop =>
    cases stop with
    | misuse e => exact .inr (.inl (.misused parsed))
    | help => exact well (d := c.say helpText) (by simp only [start, parsed]; rfl)
    | version =>
      exact well (d := c.say ("regvm " ++ versionText ++ "\n")) (by simp only [start, parsed]; rfl)
  | ok o =>
    cases log : (opened c o).2 with
    | error e => exact .inl ⟨e, .log parsed log⟩
    | ok _ =>
      cases sample : o.sample with
      | true =>
        exact well ((start_of_parsed parsed).trans (obey_of_sample log sample))
      | false =>
        cases accepted : o.config with
        | error failure =>
          obtain ⟨reason, rfl⟩ := o.reasoned_config failure accepted
          exact .inr (.inl (.rejected parsed log sample accepted))
        | ok config =>
          have ready : Ready c words o config := ⟨parsed, log, sample, accepted⟩
          exact ready.run_cases widths

end

end CommandLine
end RegisterMachine
