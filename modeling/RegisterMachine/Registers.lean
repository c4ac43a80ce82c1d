import RegisterMachine.Fault
import RegisterMachine.Text.Align
import RegisterMachine.Text.Lines

/-! The register store: a fixed sequence of named cells. Cells of one name always hold the same
value, so a name that is declared twice is one register shown twice. -/
namespace RegisterMachine

structure Registers where
  cells : List (String × Int)
  deriving DecidableEq, Repr

namespace Registers

def ofNames (names : List String) : Registers := ⟨names.map (·, 0)⟩

def names (r : Registers) : List String := r.cells.map Prod.fst

def get? (r : Registers) (name : String) : Option Int := r.cells.lookup name

/-- A name that is not declared is never added. -/
def set (r : Registers) (name : String) (value : Int) : Registers :=
  ⟨r.cells.map fun cell => if cell.1 = name then (name, value) else cell⟩

def reset (r : Registers) : Registers := ofNames r.names

def unknown (r : Registers) (name : String) : Fault := .unknownRegister name r.names

def read (r : Registers) (name : String) : Except Fault Int :=
  match r.get? name with
  | some v => .ok v
  | none => .error (r.unknown name)

def write (r : Registers) (name : String) (value : Int) : Except Fault Registers :=
  match r.get? name with
  | some _ => .ok (r.set name value)
  | none => .error (r.unknown name)

def entries (r : Registers) : List (String × Int) := r.cells.eraseDupsBy fun a b => a.1 == b.1

@[simp] theorem names_ofNames (names : List String) : (ofNames names).names = names := by
  simp [ofNames, Registers.names, Function.comp_def]

@[simp] theorem names_set (r : Registers) (name : String) (value : Int) :
    (r.set name value).names = r.names := by
  simp only [set, names, List.map_map]
  apply List.map_congr_left
  intro cell _
  simp only [Function.comp_apply]
  split <;> simp [*]

@[simp] theorem names_reset (r : Registers) : r.reset.names = r.names := names_ofNames _

theorem lookup_cons_ne {name first : String} (h : name ≠ first) (v : Int)
    (rest : List (String × Int)) : ((first, v) :: rest).lookup name = rest.lookup name := by
  rw [List.lookup_cons, beq_eq_false_iff_ne.mpr h]

theorem get?_isSome_iff (r : Registers) (name : String) : (r.get? name).isSome ↔ name ∈ r.names := by
  obtain ⟨cells⟩ := r
  simp only [get?, names]
  induction cells with
  | nil => simp
  | cons cell rest ih =>
    obtain ⟨first, v⟩ := cell
    by_cases h : name = first
    · simp [h]
    · rw [lookup_cons_ne h, ih]
      simp [h]

theorem get?_eq_none_iff (r : Registers) (name : String) : r.get? name = none ↔ name ∉ r.names := by
  rw [← get?_isSome_iff, Option.not_isSome_iff_eq_none]

theorem get?_ofNames {names : List String} {name : String} (h : name ∈ names) :
    (ofNames names).get? name = some 0 := by
  induction names with
  | nil => cases h
  | cons first rest ih =>
    by_cases hne : name = first
    · simp [ofNames, get?, hne]
    · simp only [ofNames, get?, List.map_cons, lookup_cons_ne hne] at *
      exact ih (by simpa [hne] using h)

theorem get?_set_self {r : Registers} {name : String} (h : name ∈ r.names) (value : Int) :
    (r.set name value).get? name = some value := by
  obtain ⟨cells⟩ := r
  simp only [get?, set, names] at *
  induction cells with
  | nil => cases h
  | cons cell rest ih =>
    obtain ⟨first, v⟩ := cell
    by_cases hc : name = first
    · simp [hc]
    · simp only [List.map_cons, if_neg (Ne.symm hc), lookup_cons_ne hc]
      exact ih (by simpa [hc] using h)

theorem get?_set_ne (r : Registers) {name other : String} (h : other ≠ name) (value : Int) :
    (r.set name value).get? other = r.get? other := by
  obtain ⟨cells⟩ := r
  simp only [get?, set]
  induction cells with
  | nil => rfl
  | cons cell rest ih =>
    obtain ⟨first, v⟩ := cell
    by_cases hc : first = name
    · subst hc
      simp [lookup_cons_ne h, ih]
    · by_cases ho : other = first
      · simp [hc, ho]
      · simp [hc, lookup_cons_ne ho, ih]

end Registers
end RegisterMachine
