import Mathlib.Algebra.Group.Int.Defs
import Mathlib.Algebra.Group.Nat.Defs
import RegisterMachine.Proofs.Run

/-! The range of the registers. Whatever is asked of a machine, in whatever order, every register
holds a value of its width, and the names stay as they were declared. -/
namespace RegisterMachine

def Registers.InRange (w : Width) (r : Registers) : Prop := ∀ cell ∈ r.cells, w.Holds cell.2

namespace Registers

theorem inRange_ofNames (w : Width) (names : List String) : InRange w (ofNames names) := by
  intro cell hcell
  obtain ⟨name, _, rfl⟩ := List.mem_map.mp hcell
  exact w.holds_zero

theorem inRange_reset (w : Width) (r : Registers) : InRange w r.reset := inRange_ofNames w r.names

theorem InRange.set {w : Width} {r : Registers} (h : InRange w r) (name : String) {v : Int}
    (hv : w.Holds v) : InRange w (r.set name v) := by
  intro cell hcell
  obtain ⟨old, hold, rfl⟩ := List.mem_map.mp hcell
  split
  · exact hv
  · exact h old hold

theorem mem_of_get? {r : Registers} {name : String} {v : Int} (h : r.get? name = some v) :
    (name, v) ∈ r.cells := by
  obtain ⟨cells⟩ := r
  simp only [get?] at *
  induction cells with
  | nil => cases h
  | cons cell rest ih =>
    obtain ⟨first, u⟩ := cell
    by_cases hne : name = first
    · subst hne
      simp_all
    · rw [lookup_cons_ne hne] at h
      exact List.mem_cons_of_mem _ (ih h)

theorem mem_names_of_get? {r : Registers} {name : String} {v : Int} (h : r.get? name = some v) :
    name ∈ r.names := by
  rw [← get?_isSome_iff, h]
  rfl

theorem exists_get?_of_mem {r : Registers} {name : String} (h : name ∈ r.names) :
    ∃ v, r.get? name = some v := Option.isSome_iff_exists.mp ((r.get?_isSome_iff name).mpr h)

theorem InRange.get? {w : Width} {r : Registers} (h : InRange w r) {name : String} {v : Int}
    (hv : r.get? name = some v) : w.Holds v := h _ (mem_of_get? hv)

end Registers

namespace Width

theorem size_eq (count : Nat) : size count = 2 ^ count := rfl

theorem cast_half (count : Nat) : (half count : Int) = 2 ^ (count - 1) := by
  rw [half, size_eq]
  exact Int.natCast_pow 2 (count - 1)

end Width

theorem Effect.Due.inRange {w : Width} {r : Registers} {op : Opcode} {operands : List String}
    {e : Effect} (h : Due w r op operands e) (hr : r.InRange w) : (e.apply r).InRange w := by
  cases h with
  | load declared bounds read => exact hr.set _ (Literal.holds_of_read bounds read)
  | add left right folded holds => exact hr.set _ holds
  | print declared fits => exact hr

theorem Step.Taken.inRange {w : Width} {r : Registers} {i : Instruction} {s : Step}
    (h : Taken w r i s) (hr : r.InRange w) : (s.apply r).InRange w := by
  cases h with
  | done opcode due => exact due.inRange hr
  | unknown opcode => exact hr
  | failed opcode refused => exact hr

theorem Walk.inRange {c : Config} {r : Registers} {number : Int} {lines : List String}
    {steps : List Step} {ending : Ending} (h : Walk c r number lines steps ending)
    (hr : r.InRange c.width) : (Step.applyAll r steps).InRange c.width := by
  induction h with
  | done => exact hr
  | blank parse rest ih => exact ih hr
  | step parse taken goesOn rest ih => exact ih (taken.inRange hr)
  | abort parse taken failed policy => exact taken.inRange hr
  | broken parse stuck => exact hr

theorem Processor.inRange_execute {p : Processor} (h : p.registers.InRange p.config.width)
    (s : String) (line : Int) : (p.execute s line).1.registers.InRange p.config.width := by
  unfold execute
  split
  · exact h
  next i parse =>
    rcases Step.taken_or_stuck p.config.width p.registers i with ⟨step, taken⟩ | ⟨e, stuck⟩
    · rw [perform_of_taken taken]
      exact (registers_after p [step]).symm ▸ taken.inRange h
    · rw [perform_of_stuck stuck]
      exact h

@[simp] theorem Processor.names_execute (p : Processor) (s : String) (line : Int) :
    (p.execute s line).1.registers.names = p.registers.names := by
  unfold execute
  split
  · rfl
  next i parse =>
    rcases Step.taken_or_stuck p.config.width p.registers i with ⟨step, taken⟩ | ⟨e, stuck⟩
    · rw [perform_of_taken taken]
      exact Step.names_apply step p.registers
    · rw [perform_of_stuck stuck]
      rfl

namespace Machine

/-- What can be asked of a machine: a whole run, a reset of everything or of the registers alone,
or one line with a number. -/
inductive Call where
  | run (source : String)
  | reset
  | zero
  | execute (s : String) (line : Int)

def call (m : Machine) : Call → Machine
  | .run source => (m.run source).1
  | .reset => m.reset
  | .zero => { m with registers := m.registers.reset }
  | .execute s line => (m.execute s line).1

def callAll (m : Machine) (calls : List Call) : Machine := calls.foldl call m

@[simp] theorem callAll_cons (m : Machine) (call : Call) (calls : List Call) :
    m.callAll (call :: calls) = (m.call call).callAll calls := rfl

@[simp] theorem config_call (m : Machine) (call : Call) : (m.call call).config = m.config := by
  cases call with
  | run source => exact config_run m source
  | reset => rfl
  | zero => rfl
  | execute s line => exact Processor.config_execute m.toProcessor s line

@[simp] theorem running_call (m : Machine) (call : Call) : (m.call call).running = m.running := by
  cases call with
  | run source => exact running_run m source
  | reset => rfl
  | zero => rfl
  | execute s line => rfl

@[simp] theorem names_call (m : Machine) (call : Call) :
    (m.call call).registers.names = m.registers.names := by
  cases call with
  | run source =>
    cases idle : m.running with
    | true => simp [Machine.call, run_of_running idle]
    | false =>
      obtain ⟨steps, ending, walks⟩ := m.exists_walks source
      simp [Machine.call, registers_run idle walks]
  | reset => simp [Machine.call]
  | zero => simp [Machine.call]
  | execute s line => exact Processor.names_execute m.toProcessor s line

@[simp] theorem config_callAll (m : Machine) (calls : List Call) :
    (m.callAll calls).config = m.config := by
  induction calls generalizing m with
  | nil => rfl
  | cons call calls ih => simp [ih]

@[simp] theorem running_callAll (m : Machine) (calls : List Call) :
    (m.callAll calls).running = m.running := by
  induction calls generalizing m with
  | nil => rfl
  | cons call calls ih => simp [ih]

@[simp] theorem names_callAll (m : Machine) (calls : List Call) :
    (m.callAll calls).registers.names = m.registers.names := by
  induction calls generalizing m with
  | nil => rfl
  | cons call calls ih => simp [ih]

theorem inRange_run {m : Machine} (h : m.registers.InRange m.config.width) (source : String) :
    (m.run source).1.registers.InRange m.config.width := by
  cases idle : m.running with
  | true =>
    rw [run_of_running idle]
    exact h
  | false =>
    obtain ⟨steps, ending, walks⟩ := m.exists_walks source
    rw [registers_run idle walks]
    exact walks.inRange (Registers.inRange_reset _ _)

theorem inRange_call {m : Machine} (h : m.registers.InRange m.config.width) (call : Call) :
    (m.call call).registers.InRange m.config.width := by
  cases call with
  | run source => exact inRange_run h source
  | reset => exact Registers.inRange_reset _ _
  | zero => exact Registers.inRange_reset _ _
  | execute s line => exact Processor.inRange_execute h s line

theorem inRange_callAll {m : Machine} (h : m.registers.InRange m.config.width) (calls : List Call) :
    (m.callAll calls).registers.InRange m.config.width := by
  induction calls generalizing m with
  | nil => exact h
  | cons call calls ih =>
    have next : (m.call call).registers.InRange (m.call call).config.width := by
      rw [config_call]
      exact inRange_call h call
    simpa using ih next

def fresh (m : Machine) (names : List String) : Machine := { m with registers := .ofNames names }

/-- From new registers of any names, no sequence of calls leads out of the range of the width, and
none changes the names or their order. -/
theorem registers_stay_in_range (m : Machine) (names : List String) (calls : List Call) :
    ((m.fresh names).callAll calls).registers.names = names ∧
      ∀ cell ∈ ((m.fresh names).callAll calls).registers.cells,
        m.config.width.Holds cell.2 ∧
        (∀ count two_le, m.config.width = .bits count two_le →
          -2 ^ (count - 1) ≤ cell.2 ∧ cell.2 ≤ 2 ^ (count - 1) - 1) ∧
        (m.config.width = .unbounded → cell.2.natAbs < 2 ^ 14000) := by
  constructor
  · rw [names_callAll]
    exact Registers.names_ofNames names
  · intro cell hcell
    have start : (m.fresh names).registers.InRange (m.fresh names).config.width :=
      Registers.inRange_ofNames _ names
    have holds : m.config.width.Holds cell.2 := inRange_callAll start calls cell hcell
    refine ⟨holds, ?_, ?_⟩
    · intro count two_le hwidth
      rw [hwidth] at holds
      rw [← Width.cast_half]
      exact holds
    · intro hwidth
      rw [hwidth, Width.Holds, Width.size_eq] at holds
      rw [← show Width.unboundedBits = 14000 from rfl]
      exact holds

end RegisterMachine.Machine
