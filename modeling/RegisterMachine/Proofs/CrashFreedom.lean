import RegisterMachine.Proofs.Code
import RegisterMachine.Proofs.NeverStuck

/-! The widths at which every program has a report. Up to `writableBits` bits nothing can break a
run; past them a register that is doubled often enough comes to hold a value that is too long to
print, unless the width is so great that not even its sums can be had. -/
namespace RegisterMachine

theorem Machine.walks_of_code {m : Machine} {instructions : List Instruction}
    (written : ∀ i ∈ instructions, i.Written m.config.comments) (ne : instructions ≠ [])
    {steps : List Step} {ending : Ending}
    (walk : Walk m.config m.registers.reset 1 (instructions.map Instruction.code) steps ending) :
    m.Walks (Text.unlines (instructions.map Instruction.code)) steps ending := by
  have lines : ∀ s ∈ instructions.map Instruction.code, Text.IsLine s := by
    intro s hs
    obtain ⟨i, hi, rfl⟩ := List.mem_map.mp hs
    exact Instruction.isLine_code (written i hi)
  unfold Walks
  rw [Text.lines_unlines lines (by simpa using ne)]
  exact walk

theorem Walk.effect {c : Config} {r : Registers} {number : Int} {lines : List String}
    {op : Opcode} {operands : List String} {e : Effect} {steps : List Step} {ending : Ending}
    (tokens : ∀ t ∈ operands, IsToken c.comments t) (due : Effect.Due c.width r op operands e)
    (rest : Walk c (e.apply r) (number + 1) lines steps ending) :
    ∃ steps, Walk c r number ((op.on operands).code :: lines) steps ending :=
  ⟨_, .step (Instruction.parse_trim_code (op.written_on tokens) number)
    (.done (Opcode.ofName?_name op) due) (by simp [Step.failed, Step.failure?]) rest⟩

theorem Walk.excess {c : Config} {r : Registers} {op : Opcode} {operands : List String}
    {e : Numeral.Excess} (tokens : ∀ t ∈ operands, IsToken c.comments t)
    (stuck : Effect.Stuck c.width r op operands e) (number : Int) (lines : List String) :
    ∃ steps i, Walk c r number ((op.on operands).code :: lines) steps (.broken i e) :=
  ⟨[], _, .broken (Instruction.parse_trim_code (op.written_on tokens) number)
    ⟨op, Opcode.ofName?_name op, stuck⟩⟩

namespace Width

theorem holds_neg_size {count j : Nat} {two_le : 2 ≤ count} (h : j < count) :
    (bits count two_le).Holds (-size j) := by
  have le : size j ≤ half count := size_le_size (by omega)
  have pos : 0 < size j := size_pos j
  exact ⟨by omega, by omega⟩

theorem fold_of_holds {count : Nat} {two_le : 2 ≤ count} {v : Int}
    (room : Numeral.powerExcess? count = none) (h : (bits count two_le).Holds v) :
    (bits count two_le).fold v = .ok v := by
  simp only [fold, room, wrap_of_holds h]

theorem bounds_of_room {count : Nat} {two_le : 2 ≤ count}
    (room : Numeral.powerExcess? count = none) :
    (bits count two_le).bounds = .ok (some (-half count), some (half count - 1)) := by
  have less : Numeral.powerExcess? (count - 1) = none :=
    Numeral.powerExcess?_eq_none_of_le (Nat.sub_le count 1) room
  simp only [bounds, less, least?, greatest?]

theorem not_fits_neg_size {k : Nat} (h : writableBits ≤ k) : ¬Numeral.Fits (-size k) := by
  have large : Numeral.limit ≤ size k := Nat.le_trans limit_le_size (size_le_size h)
  rw [Numeral.fits_neg, Numeral.Fits, Int.natAbs_natCast]
  exact Nat.not_lt.mpr large

end Width

def doublings (name : String) (times : Nat) : List Instruction :=
  List.replicate times (Opcode.add.on [name, name]) ++ [Opcode.print.on [name]]

section
variable {c : Config} {count : Nat} {two_le : 2 ≤ count} {name : String}

theorem written_doublings (token : IsToken c.comments name) (times : Nat) :
    ∀ i ∈ doublings name times, i.Written c.comments := by
  intro i hi
  rcases List.mem_append.mp hi with hi | hi
  · rw [(List.mem_replicate.mp hi).2]
    exact Opcode.add.written_on (by simpa using token)
  · rw [List.mem_singleton.mp hi]
    exact Opcode.print.written_on (by simpa using token)

/-- With each doubling the exponent grows by one, until the power has too many digits. -/
theorem walk_doublings (width : c.width = .bits count two_le) (wide : Width.writableBits < count)
    (room : Numeral.powerExcess? count = none) (token : IsToken c.comments name) (times j : Nat)
    (sum : j + times = Width.writableBits) {r : Registers} (number : Int)
    (holds : r.get? name = some (-(Width.size j : Int))) :
    ∃ steps i, Walk c r number ((doublings name times).map Instruction.code) steps
      (.broken i .written) := by
  induction times generalizing j r number with
  | zero =>
    have tokens : ∀ t ∈ [name], IsToken c.comments t := by simpa using token
    have unfit : ¬Numeral.Fits (-Width.size j) := Width.not_fits_neg_size (by omega)
    exact Walk.excess tokens (.print holds unfit) number []
  | succ times ih =>
    have tokens : ∀ t ∈ [name, name], IsToken c.comments t := by simpa using token
    have next : c.width.Holds (-Width.size (j + 1)) := by
      rw [width]
      exact Width.holds_neg_size (by omega)
    have folded : c.width.fold (-Width.size j + -Width.size j) = .ok (-Width.size (j + 1)) := by
      have double : (-Width.size j + -Width.size j : Int) = -Width.size (j + 1) := by
        rw [Width.size_succ]
        omega
      rw [double, width]
      rw [width] at next
      exact Width.fold_of_holds room next
    have declared : name ∈ r.names := Registers.mem_names_of_get? holds
    have doubled := Registers.get?_set_self declared (-(Width.size (j + 1) : Int))
    obtain ⟨rest, i, walk⟩ := ih (j + 1) (by omega) (number + 1) doubled
    obtain ⟨steps, walk⟩ := Walk.effect tokens (Effect.Due.add holds holds folded next) walk
    exact ⟨steps, i, walk⟩

theorem due_minus_one (width : c.width = .bits count two_le)
    (room : Numeral.powerExcess? count = none) {old : Int} {r : Registers}
    (declared : r.get? name = some old) :
    Effect.Due c.width r .load [name, "-1"] (.load name "-1" (-1)) := by
  have holds : (Width.bits count two_le).Holds (-1) := Width.holds_neg_size (j := 0) (by omega)
  rw [width]
  refine .load declared (Width.bounds_of_room room) (Literal.read_eq_ok_iff.mpr ?_)
  exact ⟨by decide, by decide, by decide, (Literal.within_some _ _ _).mpr holds⟩

/-- Loading minus one and doubling it often enough ends at a value that is too long to print. -/
theorem exists_written_excess (width : c.width = .bits count two_le)
    (wide : Width.writableBits < count) (room : Numeral.powerExcess? count = none)
    (mem : name ∈ c.names) (token : IsToken c.comments name) :
    ∃ source, c.run source = .error (.excess .written) := by
  have zero : (Registers.ofNames c.names).reset.get? name = some 0 :=
    Registers.get?_ofNames (by simpa using mem)
  have one : ((Registers.ofNames c.names).reset.set name (-1)).get? name =
      some (-(Width.size 0 : Int)) := Registers.get?_set_self (by simpa using mem) (-1)
  have minus_one : IsToken c.comments "-1" := ⟨by decide, fun _ => ⟨by decide, by decide⟩⟩
  have tokens : ∀ t ∈ [name, "-1"], IsToken c.comments t := by simpa using ⟨token, minus_one⟩
  -- kept as a variable: nothing may unfold so many doublings
  obtain ⟨times, full⟩ : ∃ times, times = Width.writableBits := ⟨_, rfl⟩
  obtain ⟨rest, i, walk⟩ := walk_doublings width wide room token times 0 (by omega) (1 + 1) one
  obtain ⟨steps, walk⟩ := Walk.effect tokens (due_minus_one width room zero) walk
  have written : ∀ i ∈ Opcode.load.on [name, "-1"] :: doublings name times, i.Written c.comments :=
    List.forall_mem_cons.mpr ⟨Opcode.load.written_on tokens, written_doublings token times⟩
  have walks := Machine.walks_of_code (m := .ofConfig c) written (by simp) walk
  exact ⟨_, Machine.excess_of_walks rfl walks⟩

theorem exists_excess (width : c.width = .bits count two_le) {e : Numeral.Excess}
    (excess : Numeral.powerExcess? count = some e) (mem : name ∈ c.names)
    (token : IsToken c.comments name) : ∃ source, c.run source = .error (.excess e) := by
  have zero : (Registers.ofNames c.names).reset.get? name = some 0 :=
    Registers.get?_ofNames (by simpa using mem)
  have folded : c.width.fold (0 + 0) = .error e := by
    rw [width]
    simp only [Width.fold, excess]
  have tokens : ∀ t ∈ [name, name], IsToken c.comments t := by simpa using token
  have written : ∀ i ∈ [Opcode.add.on [name, name]], i.Written c.comments := by
    simpa using Opcode.add.written_on tokens
  obtain ⟨steps, i, walk⟩ := Walk.excess tokens (Effect.Stuck.sum zero zero folded) 1 []
  have walks := Machine.walks_of_code (m := .ofConfig c) written (by simp) walk
  exact ⟨_, Machine.excess_of_walks rfl walks⟩

end

section
variable {c : Config} {r : Registers} {i : Instruction} {lost : Numeral.Excess}
  (bounds : c.width.bounds = .error lost) (fold : ∀ v, c.width.fold v = .error lost)
include bounds fold

theorem Step.Taken.apply_of_lost {s : Step} (h : Taken c.width r i s) : s.apply r = r := by
  cases h with
  | unknown opcode => rfl
  | failed opcode refused => rfl
  | done opcode due =>
    generalize i.operands = operands at due
    cases due with
    | load declared bounded read =>
      rw [bounds] at bounded
      cases bounded
    | add left right folded holds =>
      rw [fold] at folded
      cases folded
    | print declared fits => rfl

theorem Step.Stuck.eq_of_lost {e : Numeral.Excess} (h : Stuck c.width r i e)
    (fits : ∀ name v, r.get? name = some v → Numeral.Fits v) : e = lost := by
  obtain ⟨op, _, stuck⟩ := h
  generalize i.operands = operands at stuck
  cases stuck with
  | bounds declared bounded =>
    rw [bounds] at bounded
    exact (Except.error.inj bounded).symm
  | defect declared bounded read unwritable =>
    rw [bounds] at bounded
    cases bounded
  | sum left right folded =>
    rw [fold] at folded
    exact (Except.error.inj folded).symm
  | print declared unfit => exact absurd (fits _ _ declared) unfit

theorem Walk.eq_of_lost {number : Int} {lines : List String} {steps : List Step} {ending : Ending}
    (h : Walk c r number lines steps ending)
    (fits : ∀ name v, r.get? name = some v → Numeral.Fits v) {e : Numeral.Excess}
    (broken : ending.result = .error e) : e = lost := by
  induction h with
  | done => cases broken
  | blank parse rest ih => exact ih fits broken
  | step parse taken goesOn rest ih =>
    rw [taken.apply_of_lost bounds fold] at ih
    exact ih fits broken
  | abort => cases broken
  | broken parse stuck =>
    cases broken
    exact stuck.eq_of_lost bounds fold fits

end

theorem Machine.crash_free_of_writable {config : Config} (writable : config.width.Writable)
    (calls : List Machine.Call) (source : String) :
    (∃ report, (((Machine.ofConfig config).callAll calls).run source).2 = .ok report) ∧
      ∃ table, ((Machine.ofConfig config).callAll calls).registers.table = .ok table := by
  have inRange : ((Machine.ofConfig config).callAll calls).registers.InRange config.width :=
    inRange_callAll (inRange_ofConfig config) calls
  have declared : ((Machine.ofConfig config).callAll calls).registers.names ≠ [] := by
    rw [names_callAll, names_ofConfig]
    exact config.names_ne_nil
  have fits : ∀ cell ∈ ((Machine.ofConfig config).callAll calls).registers.cells,
      Numeral.Fits cell.2 :=
    fun cell hcell => Width.fits_of_holds writable (inRange cell hcell)
  constructor
  · apply exists_report
    · rw [running_callAll]
      rfl
    · rw [config_callAll]
      exact writable
  · exact ⟨_, Registers.table_of_fits declared fits⟩

/-- Up to 14285 bits every program has a report and every machine has a register table, whatever
was asked of the machine before. From 14286 bits on there is a program that comes to an integer too
long to write or, where the power of two of the width cannot be had, fails for lack of that. -/
theorem crash_free_up_to_writable_bits (config : Config) :
    (config.width = .unbounded ∨
        (∃ count two_le, config.width = .bits count two_le ∧ count ≤ 14285) →
      ∀ (calls : List Machine.Call) (source : String),
        (∃ report, (((Machine.ofConfig config).callAll calls).run source).2 = .ok report) ∧
        ∃ table, ((Machine.ofConfig config).callAll calls).registers.table = .ok table) ∧
    ∀ count two_le, config.width = .bits count two_le → 14286 ≤ count →
      (∃ name ∈ config.names,
        config.comments = true → ';' ∉ name.toList ∧ ¬['/', '/'] <:+: name.toList) →
      ∃ source, config.run source =
        .error (.excess ((Numeral.powerExcess? count).getD .written)) := by
  constructor
  · intro narrow
    apply Machine.crash_free_of_writable
    rcases narrow with width | ⟨count, two_le, width, le⟩
    · rw [width]
      trivial
    · rw [width]
      exact le
  · intro count two_le width wide ⟨name, mem, unmarked⟩
    have token : IsToken config.comments name := ⟨config.names_valid name mem, unmarked⟩
    cases power : Numeral.powerExcess? count with
    | none => exact exists_written_excess width wide power mem token
    | some e => exact exists_excess width power mem token

theorem crash_free_by_default :
    (∃ report, (((Machine.ofConfig .default).callAll
        [.execute "LOAD R1 7" 3, .run "ADD R1 R9", .reset]).run "PRINT R1").2 = .ok report) ∧
    (∃ table, ((Machine.ofConfig .default).callAll
        [.execute "LOAD R1 7" 3, .run "ADD R1 R9", .reset]).registers.table = .ok table) ∧
    ∃ source, (Config.default.withWidth (.bits 14286 (by decide))).run source =
      .error (.excess .written) := by
  have narrow := (crash_free_up_to_writable_bits .default).1 (.inr ⟨32, by decide, rfl, by decide⟩)
    [.execute "LOAD R1 7" 3, .run "ADD R1 R9", .reset] "PRINT R1"
  have wide := (crash_free_up_to_writable_bits (.withWidth .default (.bits 14286 (by decide)))).2
    14286 (by decide) rfl (by decide) ⟨"R1", by decide, fun _ => ⟨by decide, by decide⟩⟩
  have room : Numeral.powerExcess? 14286 = none := by decide
  rw [room] at wide
  exact ⟨narrow.1, narrow.2, wide⟩

def Config.vast : Config := Config.default.withWidth (.bits (10 ^ 20) (by decide))

/-- In words of 10^20 bits no program comes to an integer too long to write: nothing but zeros can
be had, and what breaks a run is the power of two. -/
theorem no_written_excess_of_vast_width :
    (∃ two_le, Config.vast.width = .bits (10 ^ 20) two_le) ∧ 14286 ≤ 10 ^ 20 ∧
    (∃ name ∈ Config.vast.names,
      Config.vast.comments = true → ';' ∉ name.toList ∧ ¬['/', '/'] <:+: name.toList) ∧
    ¬∃ source, Config.vast.run source = .error (.excess .written) := by
  refine ⟨⟨by decide, rfl⟩, by decide, ⟨"R1", by decide, fun _ => ⟨by decide, by decide⟩⟩, ?_⟩
  rintro ⟨source, run⟩
  obtain ⟨steps, ending, walks⟩ := (Machine.ofConfig Config.vast).exists_walks source
  cases ending with
  | finished status =>
    rw [Config.run, Machine.report_of_walks rfl walks] at run
    cases run
  | broken i e =>
    rw [Config.run, Machine.excess_of_walks rfl walks] at run
    cases run
    have fits : ∀ name v, (Machine.ofConfig Config.vast).registers.reset.get? name = some v →
        Numeral.Fits v := fun name v found =>
      Width.fits_of_holds (w := .unbounded) trivial ((Registers.inRange_reset _ _).get? found)
    have stored : Numeral.Excess.written = .stored :=
      Walk.eq_of_lost (by rfl) (fun _ => rfl) walks fits rfl
    cases stored

end RegisterMachine
