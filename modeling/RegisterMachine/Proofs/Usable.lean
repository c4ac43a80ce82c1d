import RegisterMachine.Proofs.CrashFreedom
import RegisterMachine.Proofs.Decimal
import RegisterMachine.Proofs.Lockstep

/-! Registers by name. A register whose name starts no comment can be loaded and shown with one line
each, in every state of the machine and whatever else is declared, as far as the bounds of a word
can be had at all. -/
namespace RegisterMachine

theorem Opcode.code_load_on (name text : String) :
    (load.on [name, text]).code = "LOAD " ++ name ++ " " ++ text := by
  simp [on, Instruction.code, Opcode.name, String.append_assoc]

namespace Processor
variable {p : Processor} {op : Opcode} {operands : List String}
  (tokens : ∀ t ∈ operands, IsToken p.config.comments t)
include tokens

theorem execute_code {line : Int} {step : Step}
    (taken : Step.Taken p.config.width p.registers
      { op.on operands with line, text := (op.on operands).code } step) :
    p.execute (op.on operands).code line = (p.after [step], .ok (some step)) :=
  execute_of_taken (Instruction.parse_code (op.written_on tokens) line) taken

theorem execute_of_due {e : Effect} (due : Effect.Due p.config.width p.registers op operands e)
    (line : Int) : p.execute (op.on operands).code line =
      let i := { op.on operands with line, text := (op.on operands).code }
      (p.after [⟨i, .done e⟩], .ok (some ⟨i, .done e⟩)) :=
  execute_code tokens (.done (Opcode.ofName?_name op) due)

theorem registers_of_due {e : Effect}
    (due : Effect.Due p.config.width p.registers op operands e) (line : Int) :
    (p.execute (op.on operands).code line).1.registers = e.apply p.registers := by
  rw [execute_of_due tokens due]
  rfl

theorem trace_of_due {e : Effect} (due : Effect.Due p.config.width p.registers op operands e)
    (line : Int) : (p.execute (op.on operands).code line).1.trace.toList =
      p.trace.toList ++ ["Executing: " ++ (op.on operands).code, e.report, ""] := by
  rw [execute_of_due tokens due]
  exact trace_after _ _

theorem execute_of_refused {fault : Fault}
    (refused : Effect.Refused p.config.width p.registers op operands fault) (line : Int) :
    p.execute (op.on operands).code line =
      let i := { op.on operands with line, text := (op.on operands).code }
      (p.after [⟨i, .failed ⟨fault, line, i.text⟩⟩],
        .ok (some ⟨i, .failed ⟨fault, line, i.text⟩⟩)) :=
  execute_code tokens (.failed (Opcode.ofName?_name op) refused)

end Processor

namespace Machine

def loadLine (name : String) (v : Int) : String := "LOAD " ++ name ++ " " ++ Numeral.text v

def printLine (name : String) : String := "PRINT " ++ name

def loaded (m : Machine) (name : String) (v line : Int) : Machine :=
  (m.execute (loadLine name v) line).1

def Does (m : Machine) (s : String) (line : Int) : Prop :=
  ∃ step, (m.execute s line).2 = .ok (some step) ∧ step.outcome = .done

/-- Loading a value sets the register that is named, and no other; then printing shows the value. -/
structure Uses (m : Machine) (name : String) (v line₁ line₂ : Int) : Prop where
  loads : m.Does (loadLine name v) line₁
  sets : (m.loaded name v line₁).registers.get? name = some v
  keeps : ∀ other ≠ name, (m.loaded name v line₁).registers.get? other = m.registers.get? other
  prints : (m.loaded name v line₁).Does (printLine name) line₂
  stays : ((m.loaded name v line₁).execute (printLine name) line₂).1.registers =
    (m.loaded name v line₁).registers
  shows : ((m.loaded name v line₁).execute (printLine name) line₂).1.trace.toList =
    (m.loaded name v line₁).trace.toList ++
      ["Executing: " ++ printLine name, "Value in " ++ name ++ ": " ++ Numeral.text v, ""]

theorem code_load (name : String) (v : Int) :
    (Opcode.load.on [name, Numeral.text v]).code = loadLine name v := Opcode.code_load_on name _

theorem code_print (name : String) : (Opcode.print.on [name]).code = printLine name := by
  simp [Opcode.on, Instruction.code, Opcode.name, printLine]

section
variable {m : Machine} {op : Opcode} {operands : List String} {e : Effect}
  (tokens : ∀ t ∈ operands, IsToken m.config.comments t)
  (due : Effect.Due m.config.width m.registers op operands e) (line : Int)
include tokens due

theorem execute_of_due : m.execute (op.on operands).code line =
    let i := { op.on operands with line, text := (op.on operands).code }
    ({ m with toProcessor := m.toProcessor.after [⟨i, .done e⟩] }, .ok (some ⟨i, .done e⟩)) := by
  simp only [execute, Processor.execute_of_due tokens due]

theorem does_of_due : m.Does (op.on operands).code line := by
  rw [Does, execute_of_due tokens due]
  exact ⟨_, rfl, rfl⟩

theorem config_of_due : (m.execute (op.on operands).code line).1.config = m.config := by
  rw [execute_of_due tokens due]
  rfl

theorem registers_of_due :
    (m.execute (op.on operands).code line).1.registers = e.apply m.registers :=
  Processor.registers_of_due tokens due line

theorem trace_of_due : (m.execute (op.on operands).code line).1.trace.toList =
    m.trace.toList ++ ["Executing: " ++ (op.on operands).code, e.report, ""] :=
  Processor.trace_of_due tokens due line

end

/-- Every register whose name can be written can be used, with every value between the bounds of the
word that a literal is not too long for. -/
theorem declared_register_is_usable {m : Machine} (names : m.registers.names = m.config.names)
    {low high : Option Int} (bounds : m.config.width.bounds = .ok (low, high))
    {name : String} (declared : name ∈ m.config.names)
    (unmarked : m.config.comments = true → ';' ∉ name.toList ∧ ¬['/', '/'] <:+: name.toList)
    {v : Int} (within : Literal.Within low high v)
    (short : (Nat.toDigits 10 v.natAbs).length ≤ 4000) (line₁ line₂ : Int) :
    m.Uses name v line₁ line₂ := by
  have token : IsToken m.config.comments name := ⟨m.config.names_valid name declared, unmarked⟩
  have declared : name ∈ m.registers.names := names ▸ declared
  obtain ⟨old, found⟩ := Option.isSome_iff_exists.mp ((Registers.get?_isSome_iff _ _).mpr declared)
  have tokens : ∀ t ∈ [name, Numeral.text v], IsToken m.config.comments t := by
    simpa using ⟨token, isToken_text _ v⟩
  have load : Effect.Due m.config.width m.registers .load [name, Numeral.text v]
      (.load name (Numeral.text v) v) := .load found bounds (Literal.read_text short within)
  have fits : Numeral.Fits v := (Numeral.fits_iff v).mpr (Nat.le_trans short (by decide))
  -- the machine in between, and what printing needs to know of it
  have config := config_of_due tokens load line₁
  have registers := registers_of_due tokens load line₁
  rw [code_load, ← loaded] at config registers
  have value : (m.loaded name v line₁).registers.get? name = some v := by
    rw [registers]
    exact Registers.get?_set_self declared v
  have print : Effect.Due (m.loaded name v line₁).config.width (m.loaded name v line₁).registers
      .print [name] (.print name v) := .print value fits
  have shown : ∀ t ∈ [name], IsToken (m.loaded name v line₁).config.comments t := by
    simpa [config] using token
  refine ⟨?_, value, fun other ne => ?_, ?_, ?_, ?_⟩
  · rw [← code_load]
    exact does_of_due tokens load line₁
  · rw [registers]
    exact Registers.get?_set_ne _ ne v
  · rw [← code_print]
    exact does_of_due shown print line₂
  · rw [← code_print]
    exact registers_of_due shown print line₂
  · rw [← code_print]
    exact trace_of_due shown print line₂

def worn : Machine := ((ofConfig .default).run "LOAD R2 7\nADD R2 R9").1

theorem worn_uses_least_word :
    worn.registers.names = worn.config.names ∧
    worn.config.width.bounds = .ok (some (-2147483648), some 2147483647) ∧
    "R2" ∈ worn.config.names ∧
    (worn.config.comments = true → ';' ∉ "R2".toList ∧ ¬['/', '/'] <:+: "R2".toList) ∧
    Literal.Within (some (-2147483648)) (some 2147483647) (-2147483648) ∧
    (Nat.toDigits 10 (-2147483648 : Int).natAbs).length ≤ 4000 ∧
    worn.Uses "R2" (-2147483648) 1 2 := by
  have config : worn.config = Config.default := by
    rw [worn, config_run]
    rfl
  have names : worn.registers.names = worn.config.names := by
    rw [config]
    decide +kernel
  have bounds : worn.config.width.bounds = .ok (some (-2147483648), some 2147483647) := by
    rw [config]
    rfl
  have declared : "R2" ∈ worn.config.names := by
    rw [config]
    decide
  have within : Literal.Within (some (-2147483648)) (some 2147483647) (-2147483648) := by decide
  have short : (Nat.toDigits 10 (-2147483648 : Int).natAbs).length ≤ 4000 := by decide +kernel
  have unmarked : worn.config.comments = true →
      ';' ∉ "R2".toList ∧ ¬['/', '/'] <:+: "R2".toList := fun _ => ⟨by decide, by decide⟩
  exact ⟨names, bounds, declared, unmarked, within, short,
    declared_register_is_usable names bounds declared unmarked within short 1 2⟩

end Machine

def Config.commented : Config :=
  { Config.default with
    names := ["A;B", "A"]
    names_ne_nil := by simp
    names_nodup := by decide
    names_valid := by decide }

/-- A name that starts a comment is cut where it does, and a word of 10^20 bits has no bounds. -/
theorem Machine.declared_registers_out_of_reach :
    ("A;B" ∈ Config.commented.names ∧ Config.commented.width.Holds 5 ∧
      ¬(ofConfig .commented).Uses "A;B" 5 0 0) ∧
    ("R1" ∈ Config.vast.names ∧ Config.vast.width.Holds 5 ∧
      ¬(ofConfig .vast).Uses "R1" 5 0 0) ∧ (Nat.toDigits 10 5).length ≤ 4000 := by
  refine ⟨⟨by decide, by decide +kernel, fun uses => ?_⟩,
    ⟨by decide, ?_, fun uses => ?_⟩, by decide +kernel⟩
  · obtain ⟨step, carried, done⟩ := uses.loads
    have failed : (((ofConfig .commented).execute (loadLine "A;B" 5) 0).2.toOption.bind id).map
        Step.outcome = some .failed := by decide +kernel
    rw [carried] at failed
    cases done.symm.trans (Option.some.inj failed)
  · have small : Width.size 3 ≤ Width.half (10 ^ 20) := Width.size_le_size (by decide)
    have eight : Width.size 3 = 8 := rfl
    constructor <;> omega
  · obtain ⟨step, carried, done⟩ := uses.loads
    have stored : ((ofConfig .vast).execute (loadLine "R1" 5) 0).2 = .error .stored := by rfl
    rw [stored] at carried
    cases carried

end RegisterMachine
