import Mathlib.Logic.Function.Basic
import RegisterMachine.Proofs.Range

/-! Exact arithmetic as the meaning of a run. The steps of a run are carried out again on integers
that no word bounds; what the registers hold is at every point the exact integers folded once. -/
namespace RegisterMachine

abbrev Valuation := String → Int

/-- Loading takes what the literal denotes and adding takes the sum, whatever the width. -/
def Opcode.exact : Opcode → List String → Valuation → Valuation
  | load, target :: token :: _, x => Function.update x target (Literal.value token.toList)
  | add, target :: source :: _, x => Function.update x target (x target + x source)
  | _, _, x => x

namespace Step

def done? (s : Step) : Option (Opcode × List String) :=
  match s.verdict with
  | .done _ => (Opcode.ofName? s.instruction.opcode).map (·, s.instruction.operands)
  | _ => none

def exact (s : Step) (x : Valuation) : Valuation :=
  match s.done? with
  | some (op, operands) => op.exact operands x
  | none => x

def exactFrom (x : Valuation) (steps : List Step) : Valuation :=
  steps.foldl (fun x s => s.exact x) x

theorem done?_of_done {i : Instruction} {op : Opcode} (opcode : Opcode.ofName? i.opcode = some op)
    (effect : Effect) : done? ⟨i, .done effect⟩ = some (op, i.operands) := by
  simp [done?, opcode]

end Step

/-- Every cell holds the exact integer of its name, folded. -/
def Registers.Folds (w : Width) (x : Valuation) (r : Registers) : Prop :=
  ∀ cell ∈ r.cells, cell.2 = w.wrap (x cell.1)

namespace Registers

theorem folds_ofNames (w : Width) (names : List String) : Folds w (fun _ => 0) (ofNames names) := by
  intro cell hcell
  obtain ⟨name, _, rfl⟩ := List.mem_map.mp hcell
  exact (Width.wrap_of_holds w.holds_zero).symm

section
variable {w : Width} {x : Valuation} {r : Registers} (h : Folds w x r)
include h

theorem Folds.get? {name : String} {v : Int} (hv : r.get? name = some v) : v = w.wrap (x name) :=
  h _ (mem_of_get? hv)

theorem Folds.set (name : String) {v exact : Int} (hv : v = w.wrap exact) :
    Folds w (Function.update x name exact) (r.set name v) := by
  intro cell hcell
  obtain ⟨old, hold, rfl⟩ := List.mem_map.mp hcell
  by_cases hname : old.1 = name
  · rw [if_pos hname]
    simpa using hv
  · rw [if_neg hname, Function.update_of_ne hname]
    exact h old hold

theorem Folds.cells_eq : r.cells = r.names.map fun name => (name, w.wrap (x name)) := by
  have same : ∀ cell ∈ r.cells, cell = (cell.1, w.wrap (x cell.1)) :=
    fun cell hcell => Prod.ext rfl (h cell hcell)
  calc
    r.cells = r.cells.map id := (List.map_id _).symm
    _ = r.cells.map fun cell => (cell.1, w.wrap (x cell.1)) := List.map_congr_left same
    _ = r.names.map fun name => (name, w.wrap (x name)) := by rw [names, List.map_map]; rfl

end

end Registers

section
variable {w : Width} {r : Registers} {x : Valuation}

theorem Effect.Due.folds {op : Opcode} {operands : List String} {e : Effect}
    (h : Due w r op operands e) (hr : r.Folds w x) : (e.apply r).Folds w (op.exact operands x) := by
  cases h with
  | load declared bounds read =>
    have denoted := (Literal.read_eq_ok_iff.mp read).2.2.1
    apply hr.set
    rw [denoted, Width.wrap_of_holds (Literal.holds_of_read bounds read)]
  | add left right folded holds =>
    apply hr.set
    rw [Width.eq_wrap_of_fold folded, hr.get? left, hr.get? right, Width.wrap_add_wrap]
  | print declared fits => exact hr

theorem Step.Taken.folds {i : Instruction} {s : Step} (h : Taken w r i s) (hr : r.Folds w x) :
    (s.apply r).Folds w (s.exact x) := by
  cases h with
  | done opcode due =>
    rw [exact, done?_of_done opcode]
    exact due.folds hr
  | unknown opcode => exact hr
  | failed opcode refused => exact hr

theorem Effect.Due.report_of_print {name : String} {rest : List String} {e : Effect}
    (h : Due w r .print (name :: rest) e) (hr : r.Folds w x) :
    e.report = "Value in " ++ name ++ ": " ++ Numeral.text (w.wrap (x name)) := by
  cases h with
  | print declared fits =>
    have shown := hr.get? declared
    unfold report
    rw [shown]

theorem Step.Taken.report_of_print {i : Instruction} {s : Step} (h : Taken w r i s)
    (hr : r.Folds w x) {name : String} {rest : List String}
    (print : s.done? = some (.print, name :: rest)) :
    s.report = "Value in " ++ name ++ ": " ++ Numeral.text (w.wrap (x name)) := by
  cases h with
  | done opcode due =>
    rw [done?_of_done opcode] at print
    obtain ⟨rfl, operands⟩ := Prod.mk.inj (Option.some.inj print)
    rw [operands] at due
    exact due.report_of_print hr
  | unknown opcode => cases print
  | failed opcode refused => cases print

end

section
variable {c : Config} {r : Registers} {number : Int} {lines : List String} {steps : List Step}
  {ending : Ending} {x : Valuation}

theorem Walk.folds (h : Walk c r number lines steps ending) (hr : r.Folds c.width x) :
    (Step.applyAll r steps).Folds c.width (Step.exactFrom x steps) := by
  induction h generalizing x with
  | done => exact hr
  | blank parse rest ih => exact ih hr
  | step parse taken goesOn rest ih => exact ih (taken.folds hr)
  | abort parse taken failed policy => exact taken.folds hr
  | broken parse stuck => exact hr

theorem Walk.report_of_print (h : Walk c r number lines steps ending) (hr : r.Folds c.width x)
    {k : Nat} {s : Step} (at_k : steps[k]? = some s) {name : String} {rest : List String}
    (print : s.done? = some (.print, name :: rest)) :
    s.report = "Value in " ++ name ++ ": " ++
      Numeral.text (c.width.wrap (Step.exactFrom x (steps.take k) name)) := by
  induction h generalizing x k with
  | done => cases at_k
  | blank parse rest ih => exact ih hr at_k
  | step parse taken goesOn rest ih =>
    cases k with
    | zero =>
      cases at_k
      exact taken.report_of_print hr print
    | succ k => exact ih (taken.folds hr) at_k
  | abort parse taken failed policy =>
    cases k with
    | zero =>
      cases at_k
      exact taken.report_of_print hr print
    | succ k => cases at_k
  | broken parse stuck => cases at_k

end

end RegisterMachine
