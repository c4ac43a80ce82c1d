import RegisterMachine.Proofs.CrashFreedom

/-! When a line comes to nothing. Only two things break a line off, whatever the registers hold: a
value to be printed that has too many digits, and a width whose power of two cannot be had. No fault
is too long to report, since bounds that a literal exceeds are no longer than literals. -/
namespace RegisterMachine

namespace Width
variable {w : Width}

theorem bounds_eq_error_iff {e : Numeral.Excess} : w.bounds = .error e ↔
    ∃ count two_le, w = bits count two_le ∧ Numeral.powerExcess? (count - 1) = some e := by
  cases w with
  | unbounded => simp [bounds]
  | bits count two_le =>
    simp only [bounds]
    cases power : Numeral.powerExcess? (count - 1) <;> simp [two_le, power]

theorem fold_eq_error_iff {v : Int} {e : Numeral.Excess} : w.fold v = .error e ↔
    ∃ count two_le, w = bits count two_le ∧ Numeral.powerExcess? count = some e := by
  cases w with
  | unbounded => simp [fold]
  | bits count two_le =>
    simp only [fold]
    cases power : Numeral.powerExcess? count <;> simp [two_le, power]

end Width

namespace Literal

theorem ten_pow_maxSignificant_le_limit : Nat.pow 10 maxSignificant ≤ Numeral.limit := by
  decide +kernel

theorem writable_outOfRange {w : Width} {low high : Option Int}
    (bounds : w.bounds = .ok (low, high)) {v : Int}
    (small : v.natAbs < Nat.pow 10 maxSignificant) (outside : ¬Within low high v) :
    (Defect.outOfRange low high).Writable := by
  cases w with
  | unbounded =>
    cases bounds
    exact absurd (within_none v) outside
  | bits count two_le =>
    simp only [Width.bounds] at bounds
    split at bounds
    · cases bounds
    · cases bounds
      have pos := Width.half_pos count
      have outside : ¬(-(Width.half count : Int) ≤ v ∧ v ≤ Width.half count - 1) :=
        mt (within_some _ _ v).mpr outside
      have less : Width.half count < Numeral.limit :=
        calc
          Width.half count ≤ v.natAbs := by omega
          _ < Nat.pow 10 maxSignificant := small
          _ ≤ Numeral.limit := ten_pow_maxSignificant_le_limit
      constructor
      · rintro _ ⟨⟩
        rw [Numeral.fits_neg]
        exact less
      · rintro _ ⟨⟩
        have below : (Width.half count - 1 : Int).natAbs ≤ Width.half count := by omega
        exact Nat.lt_of_le_of_lt below less

theorem writable_of_bounds {w : Width} {low high : Option Int} (bounds : w.bounds = .ok (low, high))
    {token : String} {defect : Defect} (h : read low high token = .error defect) :
    defect.Writable := by
  simp only [read] at h
  split at h
  · cases h
    trivial
  next formed =>
    split at h
    · cases h
      trivial
    next short =>
      split at h
      · cases h
      next outside =>
        cases h
        exact writable_outOfRange bounds
          (natAbs_value_lt (Decidable.not_not.mp formed) (Decidable.not_not.mp short).1) outside

end Literal

namespace Instruction

/-- Printing a declared register whose value has too many digits. -/
def PrintsOverlong (r : Registers) (i : Instruction) : Prop :=
  i.opcode = "PRINT" ∧ ∃ name rest v, i.operands = name :: rest ∧ r.get? name = some v ∧
    4300 < (Nat.toDigits 10 v.natAbs).length

/-- Loading or adding, with declared registers, at a width whose power of two cannot be had: a load
needs the one that the bounds are made of, a sum the one after it. -/
def LacksPower (w : Width) (r : Registers) (e : Numeral.Excess) (i : Instruction) : Prop :=
  ∃ count two_le, w = .bits count two_le ∧
    ((i.opcode = "LOAD" ∧ Numeral.powerExcess? (count - 1) = some e ∧
        ∃ target token rest, i.operands = target :: token :: rest ∧ target ∈ r.names) ∨
      (i.opcode = "ADD" ∧ Numeral.powerExcess? count = some e ∧
        ∃ target source rest, i.operands = target :: source :: rest ∧
          target ∈ r.names ∧ source ∈ r.names))

end Instruction

theorem Numeral.not_fits_iff (v : Int) :
    ¬Fits v ↔ 4300 < (Nat.toDigits 10 v.natAbs).length := by
  rw [fits_iff, Nat.not_le]
  exact Iff.rfl

section
variable {w : Width} {r : Registers} {i : Instruction} {e : Numeral.Excess}

theorem Step.stuck_iff :
    Stuck w r i e ↔ (i.PrintsOverlong r ∧ e = .written) ∨ i.LacksPower w r e := by
  constructor
  · rintro ⟨op, opcode, stuck⟩
    have named := Opcode.name_of_ofName? opcode
    generalize operands : i.operands = given at stuck
    cases stuck with
    | bounds declared bounds =>
      obtain ⟨count, two_le, rfl, power⟩ := Width.bounds_eq_error_iff.mp bounds
      exact .inr ⟨count, two_le, rfl, .inl ⟨named.symm, power, _, _, _, operands,
        Registers.mem_names_of_get? declared⟩⟩
    | defect declared bounds read unwritable =>
      exact absurd (Literal.writable_of_bounds bounds read) unwritable
    | sum left right folded =>
      obtain ⟨count, two_le, rfl, power⟩ := Width.fold_eq_error_iff.mp folded
      exact .inr ⟨count, two_le, rfl, .inr ⟨named.symm, power, _, _, _, operands,
        Registers.mem_names_of_get? left, Registers.mem_names_of_get? right⟩⟩
    | print declared unfit =>
      exact .inl ⟨⟨named.symm, _, _, _, operands, declared, (Numeral.not_fits_iff _).mp unfit⟩, rfl⟩
  · rintro (⟨⟨opcode, name, rest, v, operands, declared, long⟩, rfl⟩ |
      ⟨count, two_le, rfl, ⟨opcode, power, target, token, rest, operands, declared⟩ |
        ⟨opcode, power, target, source, rest, operands, left, right⟩⟩)
    · refine ⟨.print, Opcode.ofName?_eq_some_iff.mpr opcode.symm, ?_⟩
      rw [operands]
      exact .print declared ((Numeral.not_fits_iff v).mpr long)
    · obtain ⟨old, declared⟩ := Registers.exists_get?_of_mem declared
      refine ⟨.load, Opcode.ofName?_eq_some_iff.mpr opcode.symm, ?_⟩
      rw [operands]
      exact .bounds declared (Width.bounds_eq_error_iff.mpr ⟨count, two_le, rfl, power⟩)
    · obtain ⟨a, left⟩ := Registers.exists_get?_of_mem left
      obtain ⟨b, right⟩ := Registers.exists_get?_of_mem right
      refine ⟨.add, Opcode.ofName?_eq_some_iff.mpr opcode.symm, ?_⟩
      rw [operands]
      exact .sum left right (Width.fold_eq_error_iff.mpr ⟨count, two_le, rfl, power⟩)

theorem Instruction.not_lacksPower
    (room : ∀ count two_le, w = .bits count two_le → Numeral.powerExcess? count = none) :
    ¬i.LacksPower w r e := by
  rintro ⟨count, two_le, width, ⟨-, power, -⟩ | ⟨-, power, -⟩⟩
  · have less := Numeral.powerExcess?_eq_none_of_le (Nat.sub_le count 1) (room count two_le width)
    rw [less] at power
    cases power
  · rw [room count two_le width] at power
    cases power

end

namespace Processor

theorem execute_eq_error_iff {p : Processor} {s : String} {line : Int} {e : Numeral.Excess} :
    (p.execute s line).2 = .error e ↔
      ∃ i, Instruction.parse p.config.comments line s = some i ∧
        Step.Stuck p.config.width p.registers i e := by
  cases parse : Instruction.parse p.config.comments line s with
  | none => simp [execute_of_blank parse]
  | some i =>
    rcases Step.taken_or_stuck p.config.width p.registers i with ⟨step, taken⟩ | ⟨lost, stuck⟩
    · have goesOn : ¬Step.Stuck p.config.width p.registers i e := fun stuck => by
        cases (Step.take_of_taken taken).symm.trans (Step.take_of_stuck stuck)
      simp [execute_of_taken parse taken, goesOn]
    · constructor
      · intro h
        rw [execute_of_stuck parse stuck] at h
        cases h
        exact ⟨i, rfl, stuck⟩
      · rintro ⟨_, ⟨⟩, stuck⟩
        rw [execute_of_stuck parse stuck]

/-- A line comes to nothing exactly if it prints a value of too many digits, or loads or adds at a
width whose power of two cannot be had. Where this can be had, only printing is left, and loads,
sums, unknown opcodes and all faults come to a step. -/
theorem escapes_exactly (p : Processor) (s : String) (line : Int) :
    (∀ e, (p.execute s line).2 = .error e ↔
      ∃ i, Instruction.parse p.config.comments line s = some i ∧
        ((i.PrintsOverlong p.registers ∧ e = .written) ∨
          i.LacksPower p.config.width p.registers e)) ∧
    ((∀ count two_le, p.config.width = .bits count two_le → Numeral.powerExcess? count = none) →
      ((∃ e, (p.execute s line).2 = .error e) ↔
        ∃ i, Instruction.parse p.config.comments line s = some i ∧
          i.PrintsOverlong p.registers)) := by
  refine ⟨fun e => ?_, fun room => ⟨?_, ?_⟩⟩
  · simp only [execute_eq_error_iff, Step.stuck_iff]
  · rintro ⟨e, broken⟩
    obtain ⟨i, parse, stuck⟩ := execute_eq_error_iff.mp broken
    rcases Step.stuck_iff.mp stuck with ⟨overlong, -⟩ | lacks
    · exact ⟨i, parse, overlong⟩
    · exact absurd lacks (Instruction.not_lacksPower room)
  · rintro ⟨i, parse, overlong⟩
    have broken : (p.execute s line).2 = .error .written :=
      execute_eq_error_iff.mpr ⟨i, parse, Step.stuck_iff.mpr (.inl ⟨overlong, rfl⟩)⟩
    exact ⟨.written, broken⟩

def overlong : Processor where
  config := .default
  registers := ⟨[("A", Numeral.limit), ("B", -7)]⟩

theorem escapes_of_overlong :
    (∀ count two_le, overlong.config.width = .bits count two_le →
      Numeral.powerExcess? count = none) ∧
    (∃ e, (overlong.execute " PRINT A B" 7).2 = .error e) ∧
    (¬∃ e, (overlong.execute "PRINT B A" 7).2 = .error e) ∧
    ¬∃ e, (overlong.execute "ADD A A" 7).2 = .error e := by
  have room : ∀ count two_le, overlong.config.width = .bits count two_le →
      Numeral.powerExcess? count = none := by
    rintro _ _ ⟨⟩
    decide
  have long : 4300 < (Nat.toDigits 10 (Numeral.limit : Int).natAbs).length := by
    rw [← Numeral.not_fits_iff, Numeral.Fits, Int.natAbs_natCast]
    exact Nat.lt_irrefl _
  have parse_printA : Instruction.parse true 7 " PRINT A B" =
      some ⟨"PRINT", ["A", "B"], 7, "PRINT A B"⟩ := by decide +kernel
  have parse_printB : Instruction.parse true 7 "PRINT B A" =
      some ⟨"PRINT", ["B", "A"], 7, "PRINT B A"⟩ := by decide +kernel
  have parse_add : Instruction.parse true 7 "ADD A A" =
      some ⟨"ADD", ["A", "A"], 7, "ADD A A"⟩ := by decide +kernel
  refine ⟨room, ?_, ?_, ?_⟩
  · exact ((escapes_exactly overlong " PRINT A B" 7).2 room).mpr
      ⟨_, parse_printA, rfl, "A", ["B"], Numeral.limit, rfl, rfl, long⟩
  · rw [(escapes_exactly overlong "PRINT B A" 7).2 room]
    rintro ⟨i, parse, -, name, rest, v, operands, declared, long⟩
    cases parse_printB.symm.trans parse
    cases operands
    cases declared
    exact absurd long (by decide)
  · rw [(escapes_exactly overlong "ADD A A" 7).2 room]
    rintro ⟨i, parse, opcode, -⟩
    cases parse_add.symm.trans parse
    exact absurd opcode (by decide)

/-- In words of 10^20 bits a load comes to nothing, though nothing is printed. -/
theorem load_escapes_of_vast_width : ¬∀ (p : Processor) (s : String) (line : Int),
    (∃ e, (p.execute s line).2 = .error e) ↔
      ∃ i, Instruction.parse p.config.comments line s = some i ∧
        i.PrintsOverlong p.registers := by
  intro onlyPrinting
  have stored : ((ofConfig .vast).execute "LOAD R1 5" 0).2 = .error .stored := by rfl
  have parse_load : Instruction.parse true 0 "LOAD R1 5" =
      some ⟨"LOAD", ["R1", "5"], 0, "LOAD R1 5"⟩ := by decide +kernel
  obtain ⟨i, parse, opcode, -⟩ := (onlyPrinting (ofConfig .vast) "LOAD R1 5" 0).mp ⟨_, stored⟩
  cases parse_load.symm.trans parse
  exact absurd opcode (by decide)

end Processor
end RegisterMachine
