import RegisterMachine.Proofs.NeverStuck
import RegisterMachine.Proofs.Signature

/-! Slices of a program. Registers to which no register but one of them is ever added depend on no
others: the lines that load or add to them, run on their own, leave them with the same values. -/
namespace RegisterMachine

/-- Loads or adds to one of some registers, if it does anything. -/
def Instruction.aimsAt (kept : List String) (i : Instruction) : Bool :=
  (i.opcode = Opcode.load.name || i.opcode = Opcode.add.name) && i.operands.head?.any (· ∈ kept)

def Program.slice (comments : Bool) (kept : List String) (source : String) : String :=
  Text.unlines ((Text.lines source).filter fun s =>
    (Instruction.parse comments 0 s).any (Instruction.aimsAt kept))

/-- Adds to one of some registers nothing but another of them, or what is no register. -/
def Instruction.ReadsWithin (kept names : List String) (i : Instruction) : Prop :=
  ∀ target source rest, i.opcode = Opcode.add.name → i.operands = target :: source :: rest →
    target ∈ kept → source ∈ names → source ∈ kept

instance (kept names : List String) (i : Instruction) : Decidable (i.ReadsWithin kept names) :=
  match operands : i.operands with
  | [] => .isTrue (by simp [Instruction.ReadsWithin, operands])
  | [_] => .isTrue (by simp [Instruction.ReadsWithin, operands])
  | target :: source :: _ =>
    decidable_of_iff (i.opcode = Opcode.add.name → target ∈ kept → source ∈ names → source ∈ kept)
      ⟨fun h _ _ _ add split => by cases operands.symm.trans split; exact h add,
        fun h add => h _ _ _ add operands⟩

namespace Instruction
variable {kept names : List String} {i : Instruction}

theorem aimsAt_iff : i.aimsAt kept = true ↔
    (i.opcode = Opcode.load.name ∨ i.opcode = Opcode.add.name) ∧
      ∃ target rest, i.operands = target :: rest ∧ target ∈ kept := by
  cases operands : i.operands with
  | nil => simp [aimsAt, operands]
  | cons target rest => simp [aimsAt, operands]

theorem mem_kept_of_aimsAt (aims : i.aimsAt kept = true) (within : i.ReadsWithin kept names)
    {op : Opcode} (opcode : Opcode.ofName? i.opcode = some op) :
    ∀ name ∈ op.registers i.operands, name ∈ names → name ∈ kept := by
  obtain ⟨loads_or_adds, target, rest, operands, hkept⟩ := aimsAt_iff.mp aims
  have name_eq : op.name = i.opcode := Opcode.name_of_ofName? opcode
  intro name hname declared
  rw [operands] at hname
  cases op with
  | load =>
    rw [List.mem_singleton.mp hname]
    exact hkept
  | add =>
    cases rest with
    | nil =>
      rw [List.mem_singleton.mp hname]
      exact hkept
    | cons source rest =>
      rcases List.mem_pair.mp hname with rfl | rfl
      · exact hkept
      · exact within target name rest name_eq.symm operands hkept declared
  | print =>
    rw [← name_eq] at loads_or_adds
    exact absurd loads_or_adds (by decide)

theorem not_mem_kept (aims : i.aimsAt kept = false) {op : Opcode}
    (opcode : Opcode.ofName? i.opcode = some op) (writes : op = .load ∨ op = .add)
    {target : String} {rest : List String} (operands : i.operands = target :: rest) :
    target ∉ kept := by
  intro hkept
  have name_eq : op.name = i.opcode := Opcode.name_of_ofName? opcode
  have : i.aimsAt kept = true := by
    refine aimsAt_iff.mpr ⟨?_, target, rest, operands, hkept⟩
    rw [← name_eq]
    exact writes.imp (congrArg Opcode.name) (congrArg Opcode.name)
  rw [aims] at this
  cases this

end Instruction

/-- Registers of the same names, some of which hold the same values. -/
structure Registers.AgreeOn (kept : List String) (r₁ r₂ : Registers) : Prop where
  names : r₁.names = r₂.names
  values : ∀ name ∈ kept, r₁.get? name = r₂.get? name

namespace Registers

variable {kept : List String} {r₁ r₂ : Registers} (agree : r₁.AgreeOn kept r₂)
include agree

theorem AgreeOn.get? {name : String} (h : name ∈ r₁.names → name ∈ kept) :
    r₁.get? name = r₂.get? name := by
  by_cases declared : name ∈ r₁.names
  · exact agree.values name (h declared)
  · rw [(get?_eq_none_iff _ _).mpr declared, (get?_eq_none_iff _ _).mpr (agree.names ▸ declared)]

theorem AgreeOn.set {name : String} (declared : name ∈ r₁.names) (v : Int) :
    (r₁.set name v).AgreeOn kept (r₂.set name v) where
  names := by rw [names_set, names_set, agree.names]
  values := by
    intro other hother
    by_cases h : other = name
    · rw [h, get?_set_self declared, get?_set_self (agree.names ▸ declared)]
    · rw [get?_set_ne r₁ h, get?_set_ne r₂ h, agree.values other hother]

theorem AgreeOn.set_left {name : String} (outside : name ∉ kept) (v : Int) :
    (r₁.set name v).AgreeOn kept r₂ where
  names := by rw [names_set, agree.names]
  values := by
    intro other hother
    rw [get?_set_ne r₁ (ne_of_mem_of_not_mem hother outside), agree.values other hother]

end Registers

section
variable {w : Width} {kept : List String} {r₁ r₂ : Registers} (agree : r₁.AgreeOn kept r₂)
  {i : Instruction} {step : Step}
include agree

theorem Step.take_of_agreeOn (aims : i.aimsAt kept = true) (within : i.ReadsWithin kept r₁.names) :
    take w r₁ i = take w r₂ i := by
  unfold take
  cases opcode : Opcode.ofName? i.opcode with
  | none => rfl
  | some op =>
    have found : Effect.find w r₁ op i.operands = Effect.find w r₂ op i.operands :=
      Effect.find_congr agree.names fun name hname =>
        agree.get? (i.mem_kept_of_aimsAt aims within opcode name hname)
    simp only [found]

theorem Effect.Due.agreeOn {op : Opcode} {operands : List String} {e : Effect}
    (due : Due w r₁ op operands e) : (e.apply r₁).AgreeOn kept (e.apply r₂) := by
  cases due with
  | load declared bounds read => exact agree.set (Registers.mem_names_of_get? declared) _
  | add left right folded holds => exact agree.set (Registers.mem_names_of_get? left) _
  | print declared fits => exact agree

theorem Step.Taken.agreeOn (taken : Taken w r₁ i step) :
    (step.apply r₁).AgreeOn kept (step.apply r₂) := by
  cases taken with
  | done opcode due => exact due.agreeOn agree
  | unknown opcode => exact agree
  | failed opcode refused => exact agree

theorem Step.Taken.agreeOn_left (taken : Taken w r₁ i step) (aims : i.aimsAt kept = false) :
    (step.apply r₁).AgreeOn kept r₂ := by
  cases taken with
  | @done op effect opcode due =>
    generalize operands : i.operands = tokens at due
    cases due with
    | load declared bounds read =>
      exact agree.set_left (i.not_mem_kept aims opcode (.inl rfl) operands) _
    | add left right folded holds =>
      exact agree.set_left (i.not_mem_kept aims opcode (.inr rfl) operands) _
    | print declared fits => exact agree
  | unknown opcode => exact agree
  | failed opcode refused => exact agree

end

theorem Course.slice {w : Width} {kept : List String} {r₁ r₂ : Registers}
    {program : List Instruction} {steps : List Step} {ending : Ending}
    (h : Course w .skip r₁ program steps ending) (finished : ending = .finished .completed)
    (agree : r₁.AgreeOn kept r₂) (within : ∀ i ∈ program, i.ReadsWithin kept r₁.names) :
    Course w .skip r₂ (program.filter (Instruction.aimsAt kept))
        (steps.filter fun s => s.instruction.aimsAt kept) (.finished .completed) ∧
      (Step.applyAll r₁ steps).AgreeOn kept
        (Step.applyAll r₂ (steps.filter fun s => s.instruction.aimsAt kept)) := by
  induction h generalizing r₂ with
  | done r => exact ⟨.done r₂, agree⟩
  | @step r₁ i program step steps ending taken goesOn rest ih =>
    obtain ⟨first, others⟩ := List.forall_mem_cons.mp within
    rw [← Step.names_apply step r₁] at others
    cases aims : i.aimsAt kept with
    | true =>
      have taken₂ : Step.Taken w r₂ i step := by
        apply Step.taken_of_take
        rw [← Step.take_of_agreeOn agree aims first]
        exact Step.take_of_taken taken
      obtain ⟨course, agrees⟩ := ih finished (taken.agreeOn agree) others
      rw [List.filter_cons_of_pos aims, List.filter_cons_of_pos (by rwa [taken.instruction_eq])]
      exact ⟨.step taken₂ goesOn course, agrees⟩
    | false =>
      obtain ⟨course, agrees⟩ := ih finished (taken.agreeOn_left agree aims) others
      rw [List.filter_cons_of_neg (by simp [aims]),
        List.filter_cons_of_neg (by simp [aims, taken.instruction_eq])]
      exact ⟨course, agrees⟩
  | abort taken failed stops => cases stops
  | broken stuck => cases finished

section
variable {comments : Bool} {kept : List String}

theorem Program.signatures_unlines {pieces : List String} (h : ∀ s ∈ pieces, Text.IsLine s) :
    signatures comments (Text.unlines pieces) = pieces.filterMap (lineSignature? comments) := by
  cases pieces with
  | nil => cases comments <;> decide +kernel
  | cons s pieces => rw [signatures_eq, Text.lines_unlines h (List.cons_ne_nil s pieces)]

theorem Program.signatures_slice (source : String) :
    signatures comments (slice comments kept source) =
      ((parse comments source).filter (Instruction.aimsAt kept)).map Instruction.signature := by
  have inside : ∀ s ∈ (Text.lines source).filter fun s =>
      (Instruction.parse comments 0 s).any (Instruction.aimsAt kept), Text.IsLine s :=
    fun s hs => Text.isLine_of_mem_lines (List.mem_of_mem_filter hs)
  rw [slice, signatures_unlines inside, List.filterMap_filter, ← List.filterMap_eq_map,
    List.filterMap_filter, parse, filterMap_parseLines fun _ _ _ _ => rfl]
  congr 1
  funext s
  rw [Instruction.parse_eq, lineSignature?]
  cases Text.tokens comments s <;> rfl

end

section
variable {m : Machine} {source : String} {steps : List Step} {kept : List String}

theorem Machine.Walks.slice (walks : m.Walks source steps (.finished .completed))
    (skip : m.config.policy = .skip)
    (within : ∀ i ∈ Program.parse m.config.comments source,
      i.ReadsWithin kept m.registers.names) :
    ∃ steps', m.Walks (Program.slice m.config.comments kept source) steps' (.finished .completed) ∧
      (Step.applyAll m.registers.reset steps).AgreeOn kept
        (Step.applyAll m.registers.reset steps') := by
  have course := walks_iff_course.mp walks
  rw [skip] at course
  rw [← Registers.names_reset] at within
  obtain ⟨course, agree⟩ := course.slice rfl ⟨rfl, fun _ _ => rfl⟩ within
  -- the instructions of the slice stand on other lines than in the whole program
  obtain ⟨steps', ending, course', bare, finished⟩ :=
    course.exists_of_signatures (Program.signatures_slice source).symm
  obtain rfl := Ending.completed_of_bare finished.symm
  rw [← skip] at course'
  refine ⟨steps', walks_iff_course.mpr course', ?_⟩
  rw [← Step.applyAll_map_bare _ steps', ← bare, Step.applyAll_map_bare]
  exact agree

end

/-- A program whose failing lines are skipped may be cut down to the lines that load or add to some
registers, if nothing but these is added to them: if the whole program gives a report, so does the
slice, and it leaves these registers as the whole program does. -/
theorem Machine.slice_keeps_registers (m : Machine) (source : String) (report : Report)
    (kept : List String) (skip : m.config.policy = .skip) (h : (m.run source).2 = .ok report)
    (within : ∀ i ∈ Program.parse m.config.comments source,
      i.ReadsWithin kept m.registers.names) :
    ∃ sliced, (m.run (Program.slice m.config.comments kept source)).2 = .ok sliced ∧
      ∀ name ∈ kept, sliced.registers.get? name = report.registers.get? name := by
  obtain ⟨steps, status, idle, walks, rfl⟩ := walks_of_report h
  obtain rfl := walks.completed_of_skip skip
  obtain ⟨steps', walks', agree⟩ := walks.slice skip within
  exact ⟨_, report_of_walks idle walks', fun name hname => (agree.values name hname).symm⟩

def mixed : String := "LOAD R1 5\nJUMP R1\nLOAD R2 x\nADD R3 R1\nADD R2 R1 R9\nPRINT R2"

theorem Machine.slice_of_mixed :
    Program.slice true ["R1", "R2"] mixed = "LOAD R1 5\nLOAD R2 x\nADD R2 R1 R9" ∧
      ∃ report sliced, ((ofConfig .default).run mixed).2 = .ok report ∧
        ((ofConfig .default).run (Program.slice true ["R1", "R2"] mixed)).2 = .ok sliced ∧
        sliced.registers.get? "R2" = report.registers.get? "R2" := by
  refine ⟨by decide +kernel, ?_⟩
  obtain ⟨report, run⟩ :=
    exists_report (m := ofConfig .default) rfl Config.writable_default mixed
  have within : ∀ i ∈ Program.parse true mixed,
      i.ReadsWithin ["R1", "R2"] (ofConfig .default).registers.names := by
    decide +kernel
  obtain ⟨sliced, rerun, values⟩ :=
    slice_keeps_registers (ofConfig .default) mixed report ["R1", "R2"] rfl run within
  exact ⟨report, sliced, run, rerun, values "R2" (by decide)⟩

end RegisterMachine
