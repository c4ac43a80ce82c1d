import RegisterMachine.Proofs.Course
import RegisterMachine.Proofs.Dialogue
import RegisterMachine.Proofs.LineEnds

/-! Programs typed into a session. The session reads at line feeds alone, keeps each line without
what ends it and joins what it kept, while a run of a source takes every line end for one. What the
two disagree on is empty lines at the end, so a program that is typed and then run tells what it
tells on a new machine. -/
namespace RegisterMachine

def Text.fedPieces (s : String) : List String := (s.toList.splitOn '\n').map String.ofList

theorem Text.readLines_append (s line : String) (h : '\n' ∉ line.toList) :
    readLines (s ++ "\n" ++ line ++ "\n") = fedPieces s ++ [line] := by
  have split : (s ++ "\n" ++ line ++ "\n").toList.splitOn '\n' =
      s.toList.splitOn '\n' ++ ([line.toList] ++ [[]]) := by
    have text : (s ++ "\n" ++ line ++ "\n").toList =
        s.toList ++ '\n' :: (line.toList ++ ['\n']) := by simp
    rw [text, List.splitOn_append_cons_self, List.splitOn_append_cons_self,
      List.splitOn_eq_singleton h]
    rfl
  rw [readLines, fedLines, Chars.fedLines, Chars.unfedRest, split]
  simp [fedPieces]

namespace Program
variable (comments : Bool)

theorem parseLines_blanks (number : Int) (k : Nat) :
    parseLines comments number (List.replicate k "") = [] := by
  induction k generalizing number with
  | zero => rfl
  | succ k ih =>
    have blank : Instruction.parse comments number "" = none := by cases comments <;> rfl
    rw [List.replicate_succ, parseLines, blank, ih]

theorem parseLines_append_blanks (number : Int) (lines : List String) (k : Nat) :
    parseLines comments number (lines ++ List.replicate k "") =
      parseLines comments number lines := by
  induction lines generalizing number with
  | nil => exact parseLines_blanks comments number k
  | cons s lines ih => simp only [List.cons_append, parseLines, ih]

end Program

namespace Session

theorem toList_typed (s : String) : (typed s).toList = Text.Chars.dropEnds s.toList :=
  String.toList_ofList

def retyped (source : String) : String := Text.unlines ((Text.fedPieces source).map typed)

theorem toList_retyped (source : String) : (retyped source).toList =
    ['\n'].intercalate ((source.toList.splitOn '\n').map Text.Chars.dropEnds) := by
  have kept : (String.toList ∘ typed) ∘ String.ofList = Text.Chars.dropEnds := by
    funext piece
    simp [toList_typed]
  rw [retyped, Text.unlines, String.toList_intercalate, Text.fedPieces, List.map_map, List.map_map,
    kept]
  rfl

theorem exists_lines_retyped {source : String}
    (apart : ¬['\r', '\r', '\n'] <:+: source.toList) :
    ∃ k, Text.lines source = Text.lines (retyped source) ++ List.replicate k "" := by
  have unfed : ∀ piece ∈ source.toList.splitOn '\n', '\n' ∉ piece := by
    intro piece hpiece feed
    have := (Text.Chars.of_mem_splitOnP hpiece '\n' feed).2
    simp at this
  have whole : ['\n'].intercalate (source.toList.splitOn '\n') = source.toList :=
    List.intercalate_splitOn '\n'
  rw [← whole] at apart
  obtain ⟨k, same⟩ :=
    Text.Chars.exists_lines_dropEnds (List.splitOn_ne_nil '\n' source.toList) unfed apart
  refine ⟨k, ?_⟩
  rw [Text.lines, ← whole, same, Text.lines, toList_retyped, List.map_append, List.map_replicate]

theorem parse_retyped (comments : Bool) {source : String}
    (apart : ¬['\r', '\r', '\n'] <:+: source.toList) :
    Program.parse comments (retyped source) = Program.parse comments source := by
  obtain ⟨k, lines⟩ := exists_lines_retyped apart
  rw [Program.parse, Program.parse, lines, Program.parseLines_append_blanks]

def enter (s : Session) (lines : List String) : Session :=
  { s with buffer := s.buffer ++ (lines.map typed).toArray }

@[simp] theorem enter_nil (s : Session) : s.enter [] = s := by simp [enter]

theorem enter_cons (s : Session) (line : String) (lines : List String) :
    s.enter (line :: lines) = { s with buffer := s.buffer.push (typed line) }.enter lines := by
  simp [enter]

theorem converse_code (s : Session) (chunks : Array String) (broken : Option Text.Utf8.Fault)
    {front : List String} (code : ∀ line ∈ front, ¬IsCommand line) (lines : List String) :
    s.converse chunks "" broken (front ++ lines) =
      (s.enter front).converse (chunks ++ Array.replicate front.length s.prompt) "" broken
        lines := by
  induction front generalizing s chunks with
  | nil => simp
  | cons line front ih =>
    obtain ⟨first, others⟩ := List.forall_mem_cons.mp code
    have told := answer_of_code (s := s) first
    rw [List.cons_append, converse_of_text _ _ _ (congrArg Prod.snd told), ih _ _ others, told,
      enter_cons]
    have pushed : chunks.push ("" ++ s.prompt) ++ Array.replicate front.length s.prompt =
        chunks ++ Array.replicate (line :: front).length s.prompt := by
      simp [Array.replicate_succ']
    rw [pushed]

@[simp] theorem registers_close (s : Session) :
    s.close.machine.registers = s.machine.registers := rfl

@[simp] theorem prompt_enter (s : Session) (lines : List String) :
    (s.enter lines).prompt = s.prompt := rfl

@[simp] theorem machine_enter (s : Session) (lines : List String) :
    (s.enter lines).machine = s.machine := rfl

theorem hold_code (s : Session) {front : List String} (nonempty : front ≠ [])
    (code : ∀ line ∈ front, ¬IsCommand line) {report : Report}
    (ran : (s.machine.run (s.enter front).source).2 = .ok report) :
    ∃ ended chunks, s.hold (front ++ [Command.run.name]) = ⟨ended, chunks, .ok (s.runs + 1)⟩ ∧
      ended.machine.registers = report.registers ∧
      chunks.toList = (s.greeting ++ s.prompt) :: List.replicate front.length s.prompt ++
        [report.text ++ "\n" ++ s.prompt, "\n"] := by
  obtain ⟨line, front, rfl⟩ := List.exists_cons_of_ne_nil nonempty
  obtain ⟨first, others⟩ := List.forall_mem_cons.mp code
  have silent := answer_of_code (s := s) first
  have asks : Asks .run Command.run.name := by decide +kernel
  obtain ⟨counted, text⟩ := obey_run (s := s.enter (line :: front)) ran
  have told := reply_of_asks asks text
  have held : s.hold (line :: front ++ [Command.run.name]) =
      (s.enter (line :: front)).converse
        (#[s.greeting ++ s.prompt] ++ Array.replicate front.length s.prompt) "" none
        [Command.run.name] := by
    rw [hold, List.cons_append, converse_of_text _ _ _ (congrArg Prod.snd silent),
      converse_code _ _ _ others, silent, enter_cons]
    rfl
  rw [held, converse_of_text _ _ _ told, converse_nil, session_of_asks asks, counted,
    ended_singleton, prompt_obey, prompt_enter]
  have registers : ((s.enter (line :: front)).obey .run).1.close.machine.registers =
      report.registers := by
    obtain ⟨runs, ranOn⟩ := (s.enter (line :: front)).session_run
    rw [registers_close, ranOn, machine_enter]
    exact Machine.registers_of_report ran
  refine ⟨_, _, rfl, registers, ?_⟩
  simp [List.replicate_succ']

theorem source_enter (c : Config) (prompt source : String) :
    ((ofConfig c prompt).enter (Text.fedPieces source)).source = retyped source := by
  simp [Session.source, enter, ofConfig, retyped]

/-- A source that is typed in and then run is answered with the text of its report, its lines
numbered as they are in the source, and with nothing else but prompts; the registers are those of
the report. Only of two carriage returns before a line feed would the session keep too few lines. -/
theorem typed_runs_as_file (c : Config) (prompt source : String) (report : Report)
    (apart : ¬['\r', '\r', '\n'] <:+: source.toList)
    (code : ∀ line ∈ Text.fedPieces source, ¬IsCommand line)
    (ran : c.run source = .ok report) :
    let t := (ofConfig c prompt).hold (Text.readLines (source ++ "\n:run\n"))
    t.outcome = .ok 1 ∧
      t.chunks.toList = ((ofConfig c prompt).greeting ++ prompt) ::
        List.replicate (Text.fedPieces source).length prompt ++
        [report.text ++ "\n" ++ prompt, "\n"] ∧
      t.session.machine.registers = report.registers := by
  have script : source ++ "\n:run\n" = source ++ "\n" ++ Command.run.name ++ "\n" := by
    rw [String.append_assoc, String.append_assoc]
    exact congrArg (source ++ ·) (by decide)
  have same : Program.parse (Machine.ofConfig c).config.comments (retyped source) =
      Program.parse (Machine.ofConfig c).config.comments source := parse_retyped c.comments apart
  have kept : ((Machine.ofConfig c).run (retyped source)).2 = .ok report := by
    rw [Machine.run_congr_program same]
    exact ran
  rw [script, Text.readLines_append source _ (by decide)]
  have nonempty : Text.fedPieces source ≠ [] := by
    simp [Text.fedPieces, List.splitOn_ne_nil]
  rw [← source_enter c prompt] at kept
  obtain ⟨ended, chunks, held, registers, said⟩ :=
    hold_code (ofConfig c prompt) nonempty code kept
  rw [held]
  exact ⟨rfl, said, registers⟩

def mixedEnds : String := "LOAD R1 5\r\nADD R1 R1\rADD R1 R9\n\n  PRINT R1 // ten\r\r"

theorem mixedEnds_typed :
    ¬['\r', '\r', '\n'] <:+: mixedEnds.toList ∧
    (∀ line ∈ Text.fedPieces mixedEnds, ¬IsCommand line) ∧
    ∃ report, Config.default.run mixedEnds = .ok report ∧
      report.failures.map LineFault.line = [3] ∧ report.registers.get? "R1" = some 10 ∧
      let t := (ofConfig .default).hold (Text.readLines (mixedEnds ++ "\n:run\n"))
      t.outcome = .ok 1 ∧
        t.chunks.toList = ((ofConfig .default).greeting ++ defaultPrompt) ::
          List.replicate 4 defaultPrompt ++ [report.text ++ "\n" ++ defaultPrompt, "\n"] ∧
        t.session.machine.registers = report.registers := by
  have apart : ¬['\r', '\r', '\n'] <:+: mixedEnds.toList := by decide +kernel
  have code : ∀ line ∈ Text.fedPieces mixedEnds, ¬IsCommand line := by decide +kernel
  have told : (Config.default.run mixedEnds).toOption.map (fun report =>
      (report.failures.map LineFault.line, report.registers.get? "R1")) = some ([3], some 10) := by
    decide +kernel
  have four : (Text.fedPieces mixedEnds).length = 4 := by decide +kernel
  refine ⟨apart, code, ?_⟩
  cases ran : Config.default.run mixedEnds with
  | error e =>
    rw [ran] at told
    cases told
  | ok report =>
    rw [ran] at told
    obtain ⟨lines, value⟩ := Prod.mk.inj (Option.some.inj told)
    have typed := typed_runs_as_file .default defaultPrompt mixedEnds report apart code ran
    rw [four] at typed
    exact ⟨report, rfl, lines, value, typed⟩

end Session
end RegisterMachine
