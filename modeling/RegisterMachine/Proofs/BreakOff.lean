import RegisterMachine.Proofs.CrashFreedom
import RegisterMachine.Proofs.Interruption
import RegisterMachine.Proofs.Order

/-! Runs that break off. A run that comes to an integer that exceeds what it may gives no report; it
leaves the machine as the lines before left it, with the line that broke it off echoed and nothing
after that. -/
namespace RegisterMachine

namespace Processor

def executeAll (p : Processor) (number : Int) :
    List String → Except Numeral.Excess (Processor × List Step)
  | [] => .ok (p, [])
  | s :: lines =>
    match p.execute s number with
    | (_, .error e) => .error e
    | (q, .ok step?) =>
      (q.executeAll (number + 1) lines).map fun (q, steps) => (q, step?.toList ++ steps)

theorem executeAll_cons {p q r : Processor} {number : Int} {s : String} {lines : List String}
    {step? : Option Step} {steps : List Step} (first : p.execute s number = (q, .ok step?))
    (rest : q.executeAll (number + 1) lines = .ok (r, steps)) :
    p.executeAll number (s :: lines) = .ok (r, step?.toList ++ steps) := by
  simp only [executeAll, first, rest, Except.map]

end Processor

theorem Walk.executeAll_eq {p : Processor} {number : Int} {lines : List String} {steps : List Step}
    (h : Walk p.config p.registers number lines steps (.finished .completed)) :
    p.executeAll number lines = .ok (p.after steps, steps) := by
  generalize hc : p.config = c at h
  generalize hr : p.registers = r at h
  generalize completed : Ending.finished .completed = ending at h
  induction h generalizing p with
  | done => rfl
  | blank parse rest ih =>
    subst hc hr
    rw [Instruction.parse_trim] at parse
    exact Processor.executeAll_cons (Processor.execute_of_blank parse) (ih rfl rfl completed)
  | @step r number s lines i step steps ending parse taken goesOn rest ih =>
    subst hc hr
    rw [Instruction.parse_trim] at parse
    have others := ih (p := p.after [step]) (Processor.config_after _ _)
      (Processor.registers_after _ _) completed
    exact Processor.executeAll_cons (Processor.execute_of_taken parse taken) others
  | abort => cases completed
  | broken => cases completed

theorem Walk.exists_stuck_line {c : Config} {r : Registers} {number : Int} {lines : List String}
    {steps : List Step} {i : Instruction} {e : Numeral.Excess}
    (h : Walk c r number lines steps (.broken i e)) :
    ∃ k text, lines[k]? = some text ∧
      Walk c r number (lines.take k) steps (.finished .completed) ∧
      Instruction.parse c.comments (number + k) text = some i ∧
      Step.Stuck c.width (Step.applyAll r steps) i e := by
  generalize broken : Ending.broken i e = ending at h
  induction h with
  | done => cases broken
  | @blank r number s lines steps ending parse rest ih =>
    obtain ⟨k, text, line, before, code, stuck⟩ := ih broken
    refine ⟨k + 1, text, line, .blank parse before, ?_, stuck⟩
    rwa [show number + (k + 1 : Nat) = number + 1 + k by omega]
  | @step r number s lines i step steps ending parse taken goesOn rest ih =>
    obtain ⟨k, text, line, before, code, stuck⟩ := ih broken
    refine ⟨k + 1, text, line, .step parse taken goesOn before, ?_, stuck⟩
    rwa [show number + (k + 1 : Nat) = number + 1 + k by omega]
  | abort => cases broken
  | @broken r number s lines i e parse stuck =>
    cases broken
    rw [Instruction.parse_trim] at parse
    exact ⟨0, s, rfl, .done r number, by rwa [Int.natCast_zero, Int.add_zero], stuck⟩

/-- How a run is broken off at the line of an index: what the lines before it make of a machine
that has been reset, and what the machine is left with. -/
structure Machine.BreaksOff (m : Machine) (source : String) (e : Numeral.Excess) (k : Nat)
    (text : String) (before : Processor) (steps : List Step) : Prop where
  line : (Text.lines source)[k]? = some text
  earlier : m.reset.toProcessor.executeAll 1 ((Text.lines source).take k) = .ok (before, steps)
  breaks : (before.execute text (k + 1)).2 = .error e
  code : steps.map Step.instruction =
    Program.parseLines m.config.comments 1 ((Text.lines source).take k)
  idle : (m.run source).1.running = false
  status : (m.run source).1.status.text = "VM reset. Ready for new instructions."
  registers : (m.run source).1.registers = before.registers
  /-- The banner, a block for every line with code before the one that breaks, and its echo. -/
  trace : (m.run source).1.trace.toList = "VM reset. Enter new instructions." ::
    steps.flatMap (fun s => ["Executing: " ++ s.instruction.text, s.report, ""]) ++
      ["Executing: " ++ Text.trim text]

theorem Machine.machine_of_broken {m : Machine} (idle : m.running = false) {source : String}
    {steps : List Step} {i : Instruction} {e : Numeral.Excess}
    (walks : m.Walks source steps (.broken i e)) :
    (m.run source).1 = { m.reset with
      toProcessor := (m.reset.toProcessor.after steps).write (Step.echo i) } := by
  simp only [run_of_idle idle, proceed, runLines_of_walks walks, Ending.result, Ending.leave]
  rw [← idle]
  rfl

theorem Machine.exists_breaksOff {m : Machine} {source : String} {e : Numeral.Excess}
    (h : (m.run source).2 = .error (.excess e)) :
    ∃ k text before steps, m.BreaksOff source e k text before steps := by
  have idle : m.running = false := by
    rw [← Bool.not_eq_true]
    intro busy
    rw [run_of_running busy] at h
    cases h
  obtain ⟨steps, ending, walks⟩ := m.exists_walks source
  cases ending with
  | finished status =>
    rw [report_of_walks idle walks] at h
    cases h
  | broken i lost =>
    rw [excess_of_walks idle walks] at h
    cases h
    obtain ⟨k, text, line, before, code, stuck⟩ := walks.exists_stuck_line
    have left := machine_of_broken idle walks
    refine ⟨k, text, m.reset.toProcessor.after steps, steps, ?_⟩
    exact {
      line
      earlier := Walk.executeAll_eq before
      breaks := by
        have stuck : Step.Stuck (m.reset.toProcessor.after steps).config.width
            (m.reset.toProcessor.after steps).registers i e := by
          rwa [Processor.config_after, Processor.registers_after]
        have code : Instruction.parse (m.reset.toProcessor.after steps).config.comments (k + 1)
            text = some i := by
          rwa [Processor.config_after, Int.add_comm]
        rw [Processor.execute_of_stuck code stuck]
      code := before.course.instructions_of_completed rfl
      idle := by rw [running_run, idle]
      status := by
        rw [left]
        rfl
      registers := by
        rw [left]
        rfl
      trace := by
        have earlier : (m.reset.toProcessor.after steps).trace.toList =
            banner :: steps.flatMap Step.block := Processor.trace_after _ _
        have echo : Step.echo i = "Executing: " ++ Text.trim text := by
          rw [Step.echo, Instruction.text_of_parse code]
        rw [left, Processor.write, Trace.toList_write, earlier, echo]
        rfl }

/-- While a machine runs, another run is refused at every point and changes nothing, so the run
under way comes to the end that it has alone. A run that is broken off leaves the machine idle,
as the lines before left it, with the echo of the line that broke it off. -/
theorem Machine.exits_leave_known_states :
    (∀ (m : Machine) (source : String) (p : Point), m.running = false →
      Relation.ReflTransGen Point.Move (m.start source) p →
      p.machine.running = true ∧
      (∀ other, p.machine.run other = (p.machine, .error .busy)) ∧
      (∃ q, p.LeadsTo q ∧ q.outcome? = some (m.run source)) ∧
      ∀ outcome, p.outcome? = some outcome → outcome = m.run source) ∧
    ∀ (m : Machine) (source : String) (e : Numeral.Excess),
      (m.run source).2 = .error (.excess e) →
      ∃ k text before steps, m.BreaksOff source e k text before steps := by
  constructor
  · intro m source p idle moves
    have running : p.machine.running = true := (Point.leadsTo_of_moves moves).2
    refine ⟨running, fun other => run_of_running running other, ?_, ?_⟩
    · exact Point.leadsTo_outcome idle moves
    · exact fun outcome ended => Point.outcome_of_moves idle moves ended
  · intro m source e h
    exact exists_breaksOff h

def vastLines : String := "PRINT R1\n; none\n ADD R1 R1\nPRINT R1"

/-- One run is attempted after the echo of another one's first instruction, and one run is broken
off at its third line. -/
theorem Machine.exits_of_vastLines :
    (∃ p : Point, Relation.ReflTransGen Point.Move ((ofConfig .default).start fiveLines) p ∧
      p.machine.trace.toList = [banner, "Executing: LOAD R1 5 // five"] ∧
      p.machine.run vastLines = (p.machine, .error .busy) ∧
      ∃ q, p.LeadsTo q ∧ q.outcome? = some ((ofConfig .default).run fiveLines)) ∧
    ∃ k text before steps,
      (ofConfig Config.vast).BreaksOff vastLines .stored k text before steps := by
  constructor
  · let m : Machine := { (ofConfig .default).reset with running := true }
    have begins : Point.LeadsTo ((ofConfig .default).start fiveLines)
        ⟨m, [], .lines {} 1 (Text.lines fiveLines)⟩ :=
      Point.leadsTo_due { ofConfig .default with running := true } _ _
    have lines : Text.lines fiveLines =
        "; five" :: "  LOAD R1 5 // five" :: (Text.lines fiveLines).drop 2 := by decide +kernel
    have blank : Instruction.parse m.config.comments 1 (Text.trim "; five") = none := by
      decide +kernel
    have code : Instruction.parse m.config.comments (1 + 1) (Text.trim "  LOAD R1 5 // five") =
        some ⟨"LOAD", ["R1", "5"], 2, "LOAD R1 5 // five"⟩ := by decide +kernel
    rw [lines] at begins
    have echoes := (begins.trans (Point.leadsTo_blank blank)).trans (Point.leadsTo_take code)
    have moves := (Point.moves_of_leadsTo echoes).tail (.attempt _ vastLines)
    have known := exits_leave_known_states.1 _ _ _ rfl moves
    refine ⟨_, moves, ?_, known.2.1 vastLines, known.2.2.1⟩
    rw [run_of_running rfl]
    rfl
  · exact exits_leave_known_states.2 _ vastLines .stored (by decide +kernel)

end RegisterMachine
