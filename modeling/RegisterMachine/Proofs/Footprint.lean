import RegisterMachine.Proofs.Lockstep
import RegisterMachine.Proofs.Order

/-! One line on its own. A line adds its block to the trace, or nothing at all, and of the registers
it changes at most the one that its first operand names. It does so in any state, whatever the
registers hold, and only when nothing of it fails. -/
namespace RegisterMachine

/-- What a line leaves of a processor when it makes a step. -/
structure Step.Footprint (p : Processor) (s : String) (line : Int) (step : Step) (q : Processor) :
    Prop where
  code : Instruction.parse p.config.comments line s = some step.instruction
  block : q.trace.toList = p.trace.toList ++ ["Executing: " ++ Text.trim s, step.report, ""]
  names : q.registers.names = p.registers.names
  /-- Only the register that the first operand names can have another value than before. -/
  target : ∀ name, q.registers.get? name ≠ p.registers.get? name → step.outcome = .done ∧
    (step.instruction.opcode = "LOAD" ∨ step.instruction.opcode = "ADD") ∧
    step.instruction.operands.head? = some name
  load : step.outcome = .done → step.instruction.opcode = "LOAD" → ∃ name token rest,
    step.instruction.operands = name :: token :: rest ∧
    q.registers.get? name = some (Literal.value token.toList)
  add : step.outcome = .done → step.instruction.opcode = "ADD" → ∃ name source rest a b,
    step.instruction.operands = name :: source :: rest ∧
    p.registers.get? name = some a ∧ p.registers.get? source = some b ∧
    q.registers.get? name = some (p.config.width.wrap (a + b))
  idle : step.outcome = .unknownOpcode ∨ step.instruction.opcode = "PRINT" →
    q.registers = p.registers
  /-- A line fails for want of an operand, or for a literal, a register or an overflow, and whichever
  it is, all registers stay as they were. -/
  failed : ∀ failure, step.failure? = some failure → q.registers = p.registers ∧
    ∀ reason, failure.fault ≠ .other reason

namespace Effect
variable {w : Width} {r : Registers} {op : Opcode} {operands : List String} {e : Effect}

theorem Due.target (h : Due w r op operands e) {name : String}
    (changed : (e.apply r).get? name ≠ r.get? name) :
    (op = .load ∨ op = .add) ∧ operands.head? = some name := by
  cases h with
  | @load target _ _ _ v =>
    refine ⟨.inl rfl, congrArg some ?_⟩
    by_contra other
    exact changed (Registers.get?_set_ne r (Ne.symm other) v)
  | @add target _ _ _ _ total =>
    refine ⟨.inr rfl, congrArg some ?_⟩
    by_contra other
    exact changed (Registers.get?_set_ne r (Ne.symm other) total)
  | print => exact absurd rfl changed

theorem Due.load_value (h : Due w r .load operands e) : ∃ name token rest,
    operands = name :: token :: rest ∧
      (e.apply r).get? name = some (Literal.value token.toList) := by
  cases h with
  | load declared bounds read =>
    obtain ⟨-, -, rfl, -⟩ := Literal.read_eq_ok_iff.mp read
    exact ⟨_, _, _, rfl, Registers.get?_set_self (Registers.mem_names_of_get? declared) _⟩

theorem Due.add_value (h : Due w r .add operands e) : ∃ name source rest a b,
    operands = name :: source :: rest ∧ r.get? name = some a ∧ r.get? source = some b ∧
      (e.apply r).get? name = some (w.wrap (a + b)) := by
  cases h with
  | add left right folded holds =>
    obtain rfl := Width.eq_wrap_of_fold folded
    exact ⟨_, _, _, _, _, rfl, left, right,
      Registers.get?_set_self (Registers.mem_names_of_get? left) _⟩

theorem Refused.ne_other {fault : Fault} (h : Refused w r op operands fault) (reason : String) :
    fault ≠ .other reason := by
  cases h <;> exact Fault.noConfusion

theorem Due.apply_of_print (h : Due w r .print operands e) : e.apply r = r := by
  cases h
  rfl

end Effect

namespace Step
variable {w : Width} {r : Registers} {i : Instruction} {step : Step}

theorem Taken.due (h : Taken w r i step) (done : step.outcome = .done) : ∃ op effect,
    i.opcode = op.name ∧ Effect.Due w r op i.operands effect ∧ step.apply r = effect.apply r := by
  cases h with
  | done opcode due => exact ⟨_, _, (Opcode.name_of_ofName? opcode).symm, due, rfl⟩
  | unknown => cases done
  | failed => cases done

theorem Taken.due_of_name (h : Taken w r i step) (done : step.outcome = .done) (op : Opcode)
    (named : i.opcode = op.name) :
    ∃ effect, Effect.Due w r op i.operands effect ∧ step.apply r = effect.apply r := by
  obtain ⟨op', effect, named', due, apply⟩ := h.due done
  have same : some op' = some op := by
    rw [← Opcode.ofName?_name, ← Opcode.ofName?_name op, ← named', named]
  cases same
  exact ⟨effect, due, apply⟩

theorem Taken.apply_of_not_done (h : Taken w r i step) (idle : step.outcome ≠ .done) :
    step.apply r = r := by
  cases h with
  | done => exact absurd rfl idle
  | unknown => rfl
  | failed => rfl

theorem Taken.fault_ne_other (h : Taken w r i step) {failure : LineFault}
    (hf : step.failure? = some failure) (reason : String) : failure.fault ≠ .other reason := by
  cases h with
  | done => cases hf
  | unknown => cases hf
  | failed opcode refused =>
    cases hf
    exact refused.ne_other reason

theorem Taken.footprint {p : Processor} {s : String} {line : Int}
    (parse : Instruction.parse p.config.comments line s = some i)
    (h : Taken p.config.width p.registers i step) : Footprint p s line step (p.after [step]) := by
  have registers : (p.after [step]).registers = step.apply p.registers :=
    Processor.registers_after p [step]
  have echo : Step.echo i = "Executing: " ++ Text.trim s := by
    rw [Step.echo, Instruction.text_of_parse parse]
  obtain rfl := h.instruction_eq
  exact {
    code := parse
    block := by
      rw [← echo]
      exact Processor.trace_after p [step]
    names := by rw [registers, names_apply]
    target := by
      rw [registers]
      intro name changed
      by_cases done : step.outcome = .done
      · obtain ⟨op, effect, named, due, apply⟩ := h.due done
        rw [apply] at changed
        obtain ⟨writes, first⟩ := due.target changed
        refine ⟨done, writes.imp ?_ ?_, first⟩
        · rintro rfl
          exact named
        · rintro rfl
          exact named
      · exact absurd (congrArg (·.get? name) (h.apply_of_not_done done)) changed
    load := by
      intro done opcode
      obtain ⟨effect, due, apply⟩ := h.due_of_name done .load opcode
      rw [registers, apply]
      exact due.load_value
    add := by
      intro done opcode
      obtain ⟨effect, due, apply⟩ := h.due_of_name done .add opcode
      rw [registers, apply]
      exact due.add_value
    idle := by
      rw [registers]
      rintro (unknown | print)
      · exact h.apply_of_not_done (by rw [unknown]; decide)
      · by_cases done : step.outcome = .done
        · obtain ⟨effect, due, apply⟩ := h.due_of_name done .print print
          rw [apply, due.apply_of_print]
        · exact h.apply_of_not_done done
    failed := by
      rw [registers]
      intro failure hf
      have failed : step.failed = true := by rw [Step.failed, hf, Option.isSome_some]
      exact ⟨apply_of_failed failed _, h.fault_ne_other hf⟩ }

end Step

/-- What a line comes to leaves the trace as it was, but for what is added; a line without code
leaves everything as it was, and any other line has the footprint of its step. -/
theorem Processor.line_is_atomic (p : Processor) (s : String) (line : Int) (q : Processor)
    (step? : Option Step) (h : p.execute s line = (q, .ok step?)) :
    p.trace.toList <+: q.trace.toList ∧
    (step? = none → q.trace = p.trace ∧ q.registers = p.registers) ∧
    ∀ step ∈ step?, step.Footprint p s line q := by
  rcases cases_of_execute h with ⟨rfl, rfl⟩ | ⟨i, step, rfl, parse, taken, rfl⟩
  · exact ⟨List.prefix_rfl, fun _ => ⟨rfl, rfl⟩, nofun⟩
  · have footprint := taken.footprint parse
    refine ⟨⟨_, footprint.block.symm⟩, nofun, ?_⟩
    rintro _ ⟨⟩
    exact footprint

/-- A name twice, a value that is no word, and a trace that was written to before. -/
def Processor.crowded : Processor where
  config := .default
  registers := ⟨[("A", 5), ("B", 10 ^ 30), ("A", 5)]⟩
  trace := .ofList ["", "ready"]

theorem Processor.line_of_crowded :
    ∃ q step, crowded.execute " ADD\nA\u2003B C // D" (-3) = (q, .ok (some step)) ∧
      crowded.trace.toList <+: q.trace.toList ∧
      step.Footprint crowded " ADD\nA\u2003B C // D" (-3) q ∧
      q.registers.cells = [("A", 1073741829), ("B", 10 ^ 30), ("A", 1073741829)] := by
  have cells : (crowded.execute " ADD\nA\u2003B C // D" (-3)).1.registers.cells =
      [("A", 1073741829), ("B", 10 ^ 30), ("A", 1073741829)] := by decide +kernel
  obtain ⟨step, found⟩ : ∃ step,
      (crowded.execute " ADD\nA\u2003B C // D" (-3)).2 = .ok (some step) :=
    ⟨⟨⟨"ADD", ["A", "B", "C"], -3, "ADD\nA\u2003B C // D"⟩, .done (.add "A" "B" 1073741829)⟩,
      by decide +kernel⟩
  have executed : crowded.execute " ADD\nA\u2003B C // D" (-3) =
      ((crowded.execute " ADD\nA\u2003B C // D" (-3)).1, .ok (some step)) := by rw [← found]
  obtain ⟨prefixed, -, footprint⟩ := line_is_atomic _ _ _ _ _ executed
  exact ⟨_, step, executed, prefixed, footprint step rfl, cells⟩

end RegisterMachine
