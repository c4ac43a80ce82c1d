import RegisterMachine.Proofs.Range
import RegisterMachine.Registers.Table

/-! Registers whose values can all be written never stop a run. No instruction is stuck on them,
every walk comes to its end, and the registers can be shown. -/
namespace RegisterMachine

namespace Width

theorem powerExcess?_of_le {exponent : Nat} (h : exponent ≤ writableBits) :
    Numeral.powerExcess? exponent = none :=
  Numeral.powerExcess?_eq_none_of_le h (by decide)

theorem bounds_of_writable {w : Width} (hw : w.Writable) :
    w.bounds = .ok (w.least?, w.greatest?) := by
  cases w with
  | unbounded => rfl
  | bits count two_le =>
    have hcount : count ≤ writableBits := hw
    simp [bounds, powerExcess?_of_le (show count - 1 ≤ writableBits by omega)]

theorem fold_of_writable {w : Width} (hw : w.Writable) (v : Int) : w.fold v = .ok (w.wrap v) := by
  cases w with
  | unbounded => rfl
  | bits count two_le => simp [fold, powerExcess?_of_le hw]

theorem fits_least {w : Width} (hw : w.Writable) : ∀ v ∈ w.least?, Numeral.Fits v := by
  cases w with
  | unbounded => simp [least?]
  | bits count two_le =>
    intro v hv
    cases hv
    have hcount : count ≤ writableBits := hw
    apply fits_of_natAbs_le (k := count - 1) (by omega)
    simp [half]

theorem fits_greatest {w : Width} (hw : w.Writable) : ∀ v ∈ w.greatest?, Numeral.Fits v := by
  cases w with
  | unbounded => simp [greatest?]
  | bits count two_le =>
    intro v hv
    cases hv
    have hcount : count ≤ writableBits := hw
    have small : (half count - 1 : Int).natAbs ≤ half count := by
      have := half_pos count
      omega
    exact fits_of_natAbs_le (Nat.sub_le_sub_right hw 1) small

end Width

theorem Literal.writable_of_read {low high : Option Int} {token : String} {defect : Defect}
    (h : read low high token = .error defect) (fits_low : ∀ v ∈ low, Numeral.Fits v)
    (fits_high : ∀ v ∈ high, Numeral.Fits v) : defect.Writable := by
  simp only [read] at h
  split at h
  · cases h; trivial
  · split at h
    · cases h; trivial
    · split at h
      · cases h
      · cases h; exact ⟨fits_low, fits_high⟩

theorem Effect.not_stuck {w : Width} {r : Registers} (hw : w.Writable) (hr : r.InRange w)
    {op : Opcode} {operands : List String} {e : Numeral.Excess} : ¬Stuck w r op operands e := by
  intro stuck
  cases stuck with
  | bounds declared bounds =>
    rw [Width.bounds_of_writable hw] at bounds
    cases bounds
  | defect declared bounds read unwritable =>
    rw [Width.bounds_of_writable hw] at bounds
    cases bounds
    exact unwritable (Literal.writable_of_read read (Width.fits_least hw) (Width.fits_greatest hw))
  | sum left right folded =>
    rw [Width.fold_of_writable hw] at folded
    cases folded
  | print declared unfit => exact unfit (Width.fits_of_holds hw (hr.get? declared))

theorem Step.not_stuck {w : Width} {r : Registers} (hw : w.Writable) (hr : r.InRange w)
    {i : Instruction} {e : Numeral.Excess} : ¬Stuck w r i e :=
  fun ⟨_, _, stuck⟩ => Effect.not_stuck hw hr stuck

theorem Walk.finished_of_writable {c : Config} {r : Registers} {number : Int} {lines : List String}
    {steps : List Step} {ending : Ending} (h : Walk c r number lines steps ending)
    (hw : c.width.Writable) (hr : r.InRange c.width) : ∃ status, ending = .finished status := by
  induction h with
  | done => exact ⟨_, rfl⟩
  | blank parse rest ih => exact ih hr
  | step parse taken goesOn rest ih => exact ih (taken.inRange hr)
  | abort => exact ⟨_, rfl⟩
  | broken parse stuck => exact absurd stuck (Step.not_stuck hw hr)

theorem Machine.exists_report {m : Machine} (idle : m.running = false)
    (hw : m.config.width.Writable) (source : String) : ∃ report, (m.run source).2 = .ok report := by
  obtain ⟨steps, ending, walks⟩ := m.exists_walks source
  obtain ⟨status, rfl⟩ := Walk.finished_of_writable walks hw (Registers.inRange_reset _ _)
  exact ⟨_, report_of_walks idle walks⟩

theorem Config.writable_default : Config.default.width.Writable := show 32 ≤ 14285 by decide

namespace Registers

theorem row_of_fits (width : Nat) {cell : String × Int} (h : Numeral.Fits cell.2) :
    row width cell = .ok (Text.alignLeft width cell.1 ++ " = " ++ Numeral.text cell.2) := by
  unfold row
  rw [Numeral.write?_of_fits h]

theorem mapM_row {width : Nat} {cells : List (String × Int)}
    (h : ∀ cell ∈ cells, Numeral.Fits cell.2) :
    cells.mapM (row width) = .ok (cells.map fun cell =>
      Text.alignLeft width cell.1 ++ " = " ++ Numeral.text cell.2) := by
  induction cells with
  | nil => rfl
  | cons cell cells ih =>
    have others := ih fun other hother => h other (by simp [hother])
    rw [List.mapM_cons, row_of_fits width (h cell (by simp)), others]
    rfl

theorem table_of_fits {r : Registers} (ne : r.names ≠ [])
    (h : ∀ cell ∈ r.cells, Numeral.Fits cell.2) :
    r.table = .ok (Text.unlines (r.cells.map fun cell =>
      Text.alignLeft (nameWidth r.names) cell.1 ++ " = " ++ Numeral.text cell.2)) := by
  have nonempty : r.cells.isEmpty = false := by
    rw [List.isEmpty_eq_false_iff]
    rintro hnil
    exact ne (by simp [names, hnil])
  rw [table, nonempty, mapM_row h]
  rfl

end Registers

theorem Machine.names_ofConfig (config : Config) :
    (Machine.ofConfig config).registers.names = config.names := Registers.names_ofNames _

theorem Machine.inRange_ofConfig (config : Config) :
    (Machine.ofConfig config).registers.InRange config.width := Registers.inRange_ofNames _ _

end RegisterMachine
