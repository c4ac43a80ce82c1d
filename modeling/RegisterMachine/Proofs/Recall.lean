import Mathlib.Algebra.Ring.Parity
import RegisterMachine.Proofs.Operand
import RegisterMachine.Proofs.Usable

/-! What is shown can be loaded. Up to 13288 bits whatever a register comes to hold has no more
digits than a literal may have, so its text is read back. One bit more and a register can come to
hold ten to the 4000, which is shown and then refused. -/
namespace RegisterMachine

namespace Literal

theorem short_text_iff (v : Int) :
    Short (Numeral.text v).toList ↔ v.natAbs < Nat.pow 10 maxSignificant := by
  constructor
  · intro short
    have small := natAbs_value_lt (wellFormed_text v) short.1
    rwa [value_text] at small
  · intro small
    have positive : 0 < maxSignificant := by decide
    apply short_text
    generalize maxSignificant = most at small positive ⊢
    exact (Nat.length_toDigits_le_iff (by decide) positive).mpr small

theorem even_ten_pow {k : Nat} (ne : k ≠ 0) : Even (Nat.pow 10 k) :=
  Even.pow_of_ne_zero (⟨5, rfl⟩ : Even 10) ne

section
variable {w : Width} {low high : Option Int} {v : Int}

theorem read_text_of_holds (bounds : w.bounds = .ok (low, high)) (holds : w.Holds v)
    (small : v.natAbs < Nat.pow 10 maxSignificant) : read low high (Numeral.text v) = .ok v := by
  rw [← value_text v] at holds
  have back := read_of_holds (Width.le_refl w) bounds (wellFormed_text v)
    ((short_text_iff v).mpr small) holds
  rwa [value_text] at back

theorem read_text_of_large (large : Nat.pow 10 maxSignificant ≤ v.natAbs) :
    read low high (Numeral.text v) = .error .tooLong :=
  read_of_long (wellFormed_text v) fun short => Nat.not_lt.mpr large ((short_text_iff v).mp short)

end

end Literal

namespace Width

/-- The widest words whose values are all no longer than literals. -/
def recallableBits : Nat := 13288

theorem size_recallableBits_lt : size (recallableBits - 1) < Nat.pow 10 Literal.maxSignificant := by
  decide +kernel

theorem ten_pow_maxSignificant_lt_size :
    Nat.pow 10 Literal.maxSignificant < size recallableBits := by
  decide +kernel

/-- Whether every integer that is held has at most the digits of a literal. -/
def Recallable : Width → Prop
  | unbounded => False
  | bits count _ => count ≤ recallableBits

/-- Whether there are words of one digit more, and sums of such. -/
def Outgrows : Width → Prop
  | unbounded => True
  | bits count _ => recallableBits < count ∧ Numeral.powerExcess? count = none

section
variable {w : Width} {v : Int}

theorem Recallable.writable (h : w.Recallable) : w.Writable := by
  cases w with
  | unbounded => trivial
  | bits count two_le => exact Nat.le_trans h (by decide)

theorem Recallable.natAbs_lt (h : w.Recallable) (holds : w.Holds v) :
    v.natAbs < Nat.pow 10 Literal.maxSignificant := by
  cases w with
  | unbounded => exact absurd h id
  | bits count two_le =>
    obtain ⟨low, high⟩ := holds
    calc
      v.natAbs ≤ half count := by omega
      _ ≤ size (recallableBits - 1) := half_le_half h
      _ < Nat.pow 10 Literal.maxSignificant := size_recallableBits_lt

theorem Outgrows.holds (h : w.Outgrows) (small : v.natAbs < size recallableBits) : w.Holds v := by
  cases w with
  | unbounded => exact Nat.lt_of_lt_of_le small (size_le_size (by decide))
  | bits count two_le =>
    have le : size recallableBits ≤ half count := size_le_size (Nat.le_sub_one_of_lt h.1)
    exact ⟨by omega, by omega⟩

theorem Outgrows.exists_bounds (h : w.Outgrows) : ∃ low high, w.bounds = .ok (low, high) := by
  cases w with
  | unbounded => exact ⟨_, _, rfl⟩
  | bits count two_le => exact ⟨_, _, bounds_of_room h.2⟩

theorem Outgrows.fold_of_holds (h : w.Outgrows) (holds : w.Holds v) : w.fold v = .ok v := by
  cases w with
  | unbounded => rfl
  | bits count two_le => exact Width.fold_of_holds h.2 holds

end

end Width

namespace Processor
open Machine (printLine code_print)

/-- The processors that executing lines and resetting the registers lead to, from new registers of
the given names. -/
inductive Reached (c : Config) (names : List String) : Processor → Prop
  | fresh {p : Processor} (config : p.config = c) (registers : p.registers = .ofNames names) :
      Reached c names p
  | execute {p : Processor} (before : Reached c names p) (s : String) (line : Int) :
      Reached c names (p.execute s line).1
  | reset {p : Processor} (before : Reached c names p) :
      Reached c names { p with registers := p.registers.reset }

namespace Reached
variable {c : Config} {names : List String} {p : Processor} (h : Reached c names p)
include h

theorem config_eq : p.config = c := by
  induction h with
  | fresh config registers => exact config
  | execute before s line ih => rw [config_execute, ih]
  | reset before ih => exact ih

theorem names_eq : p.registers.names = names := by
  induction h with
  | fresh config registers => rw [registers, Registers.names_ofNames]
  | execute before s line ih => rw [names_execute, ih]
  | reset before ih => rw [Registers.names_reset, ih]

theorem inRange : p.registers.InRange c.width := by
  induction h with
  | fresh config registers =>
    rw [registers]
    exact Registers.inRange_ofNames _ _
  | execute before s line ih =>
    rw [← before.config_eq] at ih ⊢
    exact inRange_execute ih s line
  | reset before ih => exact Registers.inRange_reset _ _

theorem exists_get? {name : String} (mem : name ∈ names) :
    ∃ v, p.registers.get? name = some v :=
  Registers.exists_get?_of_mem (h.names_eq.symm ▸ mem)

end Reached

theorem reached_ofConfig (c : Config) : Reached c c.names (ofConfig c) := .fresh rfl rfl

def loadLine (name text : String) : String := "LOAD " ++ name ++ " " ++ text

theorem code_load (name text : String) :
    (Opcode.load.on [name, text]).code = loadLine name text := Opcode.code_load_on name text

def Shows (p : Processor) (name text : String) (line : Int) : Prop :=
  (p.execute (printLine name) line).1.trace.toList = p.trace.toList ++
    ["Executing: " ++ printLine name, "Value in " ++ name ++ ": " ++ text, ""]

structure Takes (p : Processor) (name text : String) (v line : Int) : Prop where
  done : ∃ step, (p.execute (loadLine name text) line).2 = .ok (some step) ∧ step.outcome = .done
  sets : (p.execute (loadLine name text) line).1.registers.get? name = some v

def Rejects (p : Processor) (name text : String) (line : Int) : Prop :=
  ∃ step failure, (p.execute (loadLine name text) line).2 = .ok (some step) ∧
    step.failure? = some failure ∧ failure.fault = .literal text .tooLong

section
variable {p : Processor} {name : String} {v : Int} (token : IsToken p.config.comments name)
include token

theorem shows_iff (found : p.registers.get? name = some v) (fits : Numeral.Fits v) (line : Int)
    (text : String) : p.Shows name text line ↔ text = Numeral.text v := by
  have tokens : ∀ t ∈ [name], IsToken p.config.comments t := by simpa using token
  have trace : (p.execute (printLine name) line).1.trace.toList = p.trace.toList ++
      ["Executing: " ++ printLine name, "Value in " ++ name ++ ": " ++ Numeral.text v, ""] := by
    rw [← code_print]
    exact trace_of_due tokens (.print found fits) line
  rw [Shows, trace, List.append_cancel_left_eq]
  simp only [List.cons.injEq, String.append_right_inj, true_and, and_true]
  exact eq_comm

variable (declared : name ∈ p.registers.names) {low high : Option Int}
  (bounds : p.config.width.bounds = .ok (low, high)) (line : Int)
include declared bounds

theorem takes_of_read (read : Literal.read low high (Numeral.text v) = .ok v) :
    p.Takes name (Numeral.text v) v line := by
  obtain ⟨old, found⟩ := Registers.exists_get?_of_mem declared
  have tokens : ∀ t ∈ [name, Numeral.text v], IsToken p.config.comments t := by
    simpa using ⟨token, isToken_text _ v⟩
  have load : Effect.Due p.config.width p.registers .load [name, Numeral.text v]
      (.load name (Numeral.text v) v) := .load found bounds read
  constructor
  · rw [← code_load, execute_of_due tokens load]
    exact ⟨_, rfl, rfl⟩
  · rw [← code_load, registers_of_due tokens load]
    exact Registers.get?_set_self declared v

theorem rejects_of_read (read : Literal.read low high (Numeral.text v) = .error .tooLong) :
    p.Rejects name (Numeral.text v) line := by
  obtain ⟨old, found⟩ := Registers.exists_get?_of_mem declared
  have tokens : ∀ t ∈ [name, Numeral.text v], IsToken p.config.comments t := by
    simpa using ⟨token, isToken_text _ v⟩
  rw [Rejects, ← code_load, execute_of_refused tokens (.defect found bounds read trivial)]
  exact ⟨_, _, rfl, rfl, rfl⟩

end

section
variable {c : Config} {names : List String}

theorem Reached.takes_back {p : Processor} (h : Reached c names p) (narrow : c.width.Recallable)
    {r s : String} (mem_r : r ∈ names) (token_r : IsToken c.comments r) (mem_s : s ∈ names)
    (token_s : IsToken c.comments s) (line₁ line₂ : Int) :
    ∃ v, p.registers.get? r = some v ∧ p.Shows r (Numeral.text v) line₁ ∧
      ∀ text, p.Shows r text line₁ → (p.execute (printLine r) line₁).1.Takes s text v line₂ := by
  obtain ⟨v, found⟩ := h.exists_get? mem_r
  have holds : c.width.Holds v := h.inRange.get? found
  have fits : Numeral.Fits v := Width.fits_of_holds narrow.writable holds
  rw [← h.config_eq] at token_r
  refine ⟨v, found, (shows_iff token_r found fits line₁ _).mpr rfl, fun text shown => ?_⟩
  rw [(shows_iff token_r found fits line₁ text).mp shown]
  have next : Reached c names (p.execute (printLine r) line₁).1 := h.execute _ _
  obtain ⟨low, high, bounds⟩ : ∃ low high, c.width.bounds = .ok (low, high) :=
    ⟨_, _, Width.bounds_of_writable narrow.writable⟩
  have read := Literal.read_text_of_holds bounds holds (narrow.natAbs_lt holds)
  rw [← next.config_eq] at token_s bounds
  rw [← next.names_eq] at mem_s
  exact takes_of_read token_s mem_s bounds line₂ read

theorem exists_reached_large (wide : c.width.Outgrows) {r : String} (mem : r ∈ names)
    (token : IsToken c.comments r) : ∃ p v, Reached c names p ∧ p.registers.get? r = some v ∧
      v.natAbs = Nat.pow 10 Literal.maxSignificant := by
  obtain ⟨low, high, bounds⟩ := wide.exists_bounds
  -- kept as a variable: nothing may work out so great a power
  obtain ⟨half, twice⟩ := Literal.even_ten_pow (k := Literal.maxSignificant) (by decide)
  have positive : 0 < Nat.pow 10 Literal.maxSignificant := by decide +kernel
  have fewer := Width.ten_pow_maxSignificant_lt_size
  have read : Literal.read low high (Numeral.text half) = .ok (half : Int) :=
    Literal.read_text_of_holds bounds (wide.holds (by omega)) (by omega)
  have start : Reached c names { config := c, registers := .ofNames names } := .fresh rfl rfl
  have declared : r ∈ (Registers.ofNames names).names := by rwa [Registers.names_ofNames]
  have loaded := (takes_of_read (p := { config := c, registers := .ofNames names }) token declared
    bounds 0 read).sets
  have next := start.execute (loadLine r (Numeral.text half)) 0
  generalize (execute _ _ 0).1 = p at loaded next
  have tokens : ∀ t ∈ [r, r], IsToken p.config.comments t := by
    rw [next.config_eq]
    simpa using token
  have sum : Effect.Due p.config.width p.registers .add [r, r] (.add r r (half + half)) := by
    rw [next.config_eq]
    have holds : c.width.Holds (half + half) := wide.holds (by omega)
    exact .add loaded loaded (wide.fold_of_holds holds) holds
  refine ⟨_, half + half, next.execute (Opcode.add.on [r, r]).code 0, ?_, by omega⟩
  rw [registers_of_due tokens sum]
  exact Registers.get?_set_self (Registers.mem_names_of_get? loaded) _

theorem Reached.rejects_shown {p : Processor} (h : Reached c names p) (wide : c.width.Outgrows)
    {r : String} (token_r : IsToken c.comments r) {v : Int} (found : p.registers.get? r = some v)
    (large : v.natAbs = Nat.pow 10 Literal.maxSignificant) (line₁ : Int) :
    p.Shows r (Numeral.text v) line₁ ∧ ∀ s ∈ names, IsToken c.comments s → ∀ line₂,
      (p.execute (printLine r) line₁).1.Rejects s (Numeral.text v) line₂ := by
  obtain ⟨low, high, bounds⟩ := wide.exists_bounds
  have fits : Numeral.Fits v := Width.fits_of_natAbs_le (k := Width.recallableBits) (by decide)
    (large ▸ Nat.le_of_lt Width.ten_pow_maxSignificant_lt_size)
  rw [← h.config_eq] at token_r
  refine ⟨(shows_iff token_r found fits line₁ _).mpr rfl, fun s mem_s token_s line₂ => ?_⟩
  have next : Reached c names (p.execute (printLine r) line₁).1 := h.execute _ _
  rw [← next.config_eq] at token_s bounds
  rw [← next.names_eq] at mem_s
  exact rejects_of_read token_s mem_s bounds line₂ (Literal.read_text_of_large large.ge)

/-- Up to 13288 bits, in every state that is reached, printing shows the value of a register as a
text, and loading what is shown into any register sets that to the value. From 13289 bits on, if the
power of two of the width can be had, and in unbounded registers, every register can come to a value
that is shown as a text which is too long to be loaded. -/
theorem shown_is_loaded_up_to_recallable_bits (c : Config) (names : List String) :
    ((∃ count two_le, c.width = .bits count two_le ∧ count ≤ 13288) →
      ∀ p, Reached c names p → ∀ r ∈ names, IsToken c.comments r →
        ∀ s ∈ names, IsToken c.comments s → ∀ line₁ line₂, ∃ v,
          p.registers.get? r = some v ∧ p.Shows r (Numeral.text v) line₁ ∧
          ∀ text, p.Shows r text line₁ → (p.execute (printLine r) line₁).1.Takes s text v line₂) ∧
    (c.width = .unbounded ∨ (∃ count two_le, c.width = .bits count two_le ∧ 13289 ≤ count ∧
        Numeral.powerExcess? count = none) →
      ∀ r ∈ names, IsToken c.comments r → ∃ p text, Reached c names p ∧ ∀ line₁,
        p.Shows r text line₁ ∧ ∀ s ∈ names, IsToken c.comments s → ∀ line₂,
          (p.execute (printLine r) line₁).1.Rejects s text line₂) := by
  constructor
  · rintro ⟨count, two_le, width, le⟩ p reached r mem_r token_r s mem_s token_s line₁ line₂
    have narrow : c.width.Recallable := by
      rw [width]
      exact le
    exact reached.takes_back narrow mem_r token_r mem_s token_s line₁ line₂
  · intro wide r mem token
    have wide : c.width.Outgrows := by
      rcases wide with width | ⟨count, two_le, width, more, room⟩ <;> rw [width]
      · trivial
      · exact ⟨more, room⟩
    obtain ⟨p, v, reached, found, large⟩ := exists_reached_large wide mem token
    exact ⟨p, _, reached, reached.rejects_shown wide token found large⟩

end

def widest : Processor :=
  ((ofConfig (.withWidth .default (.bits 13288 (by decide)))).execute "LOAD R1 -9" 1).1

theorem shown_is_loaded_around_recallable_bits :
    (∃ v, widest.registers.get? "R1" = some v ∧ widest.Shows "R1" (Numeral.text v) 2 ∧
      ∀ text, widest.Shows "R1" text 2 →
        (widest.execute (printLine "R1") 2).1.Takes "R2" text v 3) ∧
    (∃ p text, Reached (.withWidth .default (.bits 13289 (by decide))) ["R1", "R2"] p ∧
      p.Shows "R1" text 2 ∧ (p.execute (printLine "R1") 2).1.Rejects "R2" text 3) ∧
    ∃ p text, Reached (.withWidth .default .unbounded) ["R1", "R2"] p ∧
      p.Shows "R1" text 2 ∧ (p.execute (printLine "R1") 2).1.Rejects "R2" text 3 := by
  have first : IsToken true "R1" := ⟨by decide, fun _ => ⟨by decide, by decide⟩⟩
  have second : IsToken true "R2" := ⟨by decide, fun _ => ⟨by decide, by decide⟩⟩
  have reached := (reached_ofConfig (.withWidth .default (.bits 13288 (by decide)))).execute
    "LOAD R1 -9" 1
  refine ⟨?_, ?_, ?_⟩
  · exact (shown_is_loaded_up_to_recallable_bits _ _).1 ⟨13288, by decide, rfl, by decide⟩ widest
      reached "R1" (by decide) first "R2" (by decide) second 2 3
  · obtain ⟨p, text, reached, shown⟩ := (shown_is_loaded_up_to_recallable_bits
      (.withWidth .default (.bits 13289 (by decide))) ["R1", "R2"]).2
      (.inr ⟨13289, by decide, rfl, by decide, by decide⟩) "R1" (by decide) first
    exact ⟨p, text, reached, (shown 2).1, (shown 2).2 "R2" (by decide) second 3⟩
  · obtain ⟨p, text, reached, shown⟩ := (shown_is_loaded_up_to_recallable_bits
      (.withWidth .default .unbounded) ["R1", "R2"]).2 (.inl rfl) "R1" (by decide) first
    exact ⟨p, text, reached, (shown 2).1, (shown 2).2 "R2" (by decide) second 3⟩

theorem bounds_of_rejects {p : Processor} {name text : String} {line : Int}
    (h : p.Rejects name text line) : ∃ low high, p.config.width.bounds = .ok (low, high) := by
  obtain ⟨step, failure, executed, failed, literal⟩ := h
  rcases cases_of_execute (Prod.ext rfl executed) with ⟨⟨⟩, -⟩ | ⟨i, _, ⟨⟩, -, taken, -⟩
  cases taken with
  | done | unknown => cases failed
  | failed opcode refused =>
    cases failed
    generalize i.operands = operands at refused
    subst literal
    cases refused with
    | defect declared bounds read writable => exact ⟨_, _, bounds⟩

/-- In words of 10^20 bits no text is too long to be loaded, since nothing is loaded at all. -/
theorem nothing_too_long_of_vast_width :
    (∃ two_le, Config.vast.width = .bits (10 ^ 20) two_le) ∧ 13289 ≤ 10 ^ 20 ∧
    "R1" ∈ Config.vast.names ∧ IsToken Config.vast.comments "R1" ∧
    ¬∃ p r text s line₁ line₂, Reached .vast Config.vast.names p ∧ p.Shows r text line₁ ∧
      (p.execute (printLine r) line₁).1.Rejects s text line₂ := by
  refine ⟨⟨by decide, rfl⟩, by decide, by decide, ⟨by decide, fun _ => ⟨by decide, by decide⟩⟩, ?_⟩
  rintro ⟨p, r, text, s, line₁, line₂, reached, -, rejected⟩
  have lost : Config.vast.width.bounds = .error .stored := by rfl
  obtain ⟨low, high, bounds⟩ := bounds_of_rejects rejected
  rw [config_execute, reached.config_eq, lost] at bounds
  cases bounds

end Processor
end RegisterMachine
