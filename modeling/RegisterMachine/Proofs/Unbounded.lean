import RegisterMachine.Proofs.Exact
import RegisterMachine.Proofs.Printout
import RegisterMachine.Proofs.Recall

/-! Unbounded arithmetic against a reference. The reference goes through the instructions that were
carried out with mathematical integers and is told nothing of how they came out: it finds out on its
own which of them assign. The registers are at every point those of the reference, and a sum
overflows exactly where the reference comes to the guard. -/
namespace RegisterMachine

def Literal.integer? (token : String) : Option Int :=
  if WellFormed token.toList ∧ Short token.toList then some (value token.toList) else none

theorem Literal.integer?_eq_some_iff {token : String} {v : Int} :
    integer? token = some v ↔ ∃ sign ds, Spells token sign ds ∧ FewEnough ds ∧
      sign.apply (placeValue ds) = v := by
  unfold integer?
  constructor
  · intro h
    obtain ⟨⟨formed, short⟩, value⟩ := Option.ite_some_none_eq_some.mp h
    obtain ⟨sign, ds, spelled⟩ := exists_spells formed
    exact ⟨sign, ds, spelled, spelled.short_iff.mp short, spelled.value_eq ▸ value⟩
  · rintro ⟨sign, ds, spelled, few, rfl⟩
    rw [if_pos ⟨spelled.wellFormed, spelled.short_iff.mpr few⟩, spelled.value_eq]

theorem Literal.integer?_of_read {token : String} {v : Int} (h : read none none token = .ok v) :
    integer? token = some v := by
  obtain ⟨formed, short, rfl, _⟩ := read_eq_ok_iff.mp h
  exact if_pos ⟨formed, short⟩

theorem Literal.integer?_of_defect {token : String} {defect : Defect}
    (h : read none none token = .error defect) : integer? token = none := by
  refine if_neg fun ⟨formed, short⟩ => ?_
  have read := read_eq_ok_iff.mpr ⟨formed, short, rfl, within_none (value token.toList)⟩
  rw [h] at read
  cases read

/-- What an instruction assigns in mathematical integers: a literal to a declared register, or the
sum of two if it is below the guard. -/
def Opcode.assigned? (names : List String) (x : Valuation) :
    Opcode → List String → Option (String × Int)
  | load, target :: token :: _ =>
    if target ∈ names then (Literal.integer? token).map (target, ·) else none
  | add, target :: source :: _ =>
    if target ∈ names ∧ source ∈ names ∧ (x target + x source).natAbs < 2 ^ 14000 then
      some (target, x target + x source)
    else none
  | _, _ => none

def Opcode.reference (names : List String) (x : Valuation) (op : Opcode) (operands : List String) :
    Valuation :=
  match op.assigned? names x operands with
  | some (target, v) => Function.update x target v
  | none => x

namespace Instruction

def reference (names : List String) (x : Valuation) (i : Instruction) : Valuation :=
  match Opcode.ofName? i.opcode with
  | some op => op.reference names x i.operands
  | none => x

def referenceFrom (names : List String) (x : Valuation) (program : List Instruction) : Valuation :=
  program.foldl (reference names) x

/-- An addition of declared registers whose exact sum is not below the guard. -/
def Overflows (names : List String) (x : Valuation) (i : Instruction) (target : String) : Prop :=
  ∃ source rest, i.opcode = "ADD" ∧ i.operands = target :: source :: rest ∧ target ∈ names ∧
    source ∈ names ∧ 2 ^ 14000 ≤ (x target + x source).natAbs

end Instruction

theorem Width.size_add (m n : Nat) : size (m + n) = 2 ^ m * size n := by
  rw [size_eq, size_eq, pow_add]

theorem Width.size_lt_size {m n : Nat} (h : m < n) : size m < size n :=
  Nat.pow_lt_pow_right (by decide) h

theorem Width.holds_unbounded_iff (v : Int) : unbounded.Holds v ↔ v.natAbs < 2 ^ 14000 := by
  rw [Holds, size_eq, show unboundedBits = 14000 from rfl]

section
variable {r : Registers} {x : Valuation} (hr : r.Folds .unbounded x)
include hr

theorem Registers.Folds.get?_eq {name : String} {v : Int} (hv : r.get? name = some v) :
    v = x name := hr.get? hv

theorem Registers.Folds.get?_of_mem {name : String} (h : name ∈ r.names) :
    r.get? name = some (x name) := by
  obtain ⟨v, hv⟩ := exists_get?_of_mem h
  rw [hv, hr.get?_eq hv]

namespace Effect
variable {op : Opcode} {operands : List String}

theorem Due.folds_reference {e : Effect} (h : Due .unbounded r op operands e) :
    (e.apply r).Folds .unbounded (op.reference r.names x operands) := by
  cases h with
  | @load target token rest old v low high declared bounds read =>
    cases bounds
    have assigned : Opcode.assigned? r.names x .load (target :: token :: rest) =
        some (target, v) := by
      simp only [Opcode.assigned?, Registers.mem_names_of_get? declared, ↓reduceIte,
        Literal.integer?_of_read read, Option.map_some]
    rw [Opcode.reference, assigned]
    exact hr.set target rfl
  | @add target source rest a b total left right folded holds =>
    cases folded
    obtain rfl := hr.get?_eq left
    obtain rfl := hr.get?_eq right
    have small := (Width.holds_unbounded_iff _).mp holds
    have assigned : Opcode.assigned? r.names x .add (target :: source :: rest) =
        some (target, x target + x source) := by
      simp only [Opcode.assigned?, Registers.mem_names_of_get? left,
        Registers.mem_names_of_get? right, small, true_and, ↓reduceIte]
    rw [Opcode.reference, assigned]
    exact hr.set target rfl
  | print declared fits => exact hr

theorem Refused.reference_eq {fault : Fault} (h : Refused .unbounded r op operands fault) :
    op.reference r.names x operands = x := by
  -- Whatever a refusal rests on, the reference finds it in the names, the token or the exact sum.
  have assigned : op.assigned? r.names x operands = none := by
    cases h with
    | arity few =>
      unfold Opcode.assigned?
      split
      · exact absurd few (by simp [Opcode.arity])
      · exact absurd few (by simp [Opcode.arity])
      · rfl
    | loadTarget undeclared => exact if_neg ((r.get?_eq_none_iff _).mp undeclared)
    | defect declared bounds read writable =>
      cases bounds
      simp only [Opcode.assigned?, Literal.integer?_of_defect read, Option.map_none, ite_self]
    | addTarget undeclared => exact if_neg fun h => (r.get?_eq_none_iff _).mp undeclared h.1
    | addSource left undeclared => exact if_neg fun h => (r.get?_eq_none_iff _).mp undeclared h.2.1
    | overflow left right folded exceeds =>
      cases folded
      obtain rfl := hr.get?_eq left
      obtain rfl := hr.get?_eq right
      exact if_neg fun h => exceeds ((Width.holds_unbounded_iff _).mpr h.2.2)
    | printSource undeclared => rfl
  rw [Opcode.reference, assigned]

end Effect

namespace Step.Taken
variable {i : Instruction} {s : Step}

theorem folds_reference (h : Taken .unbounded r i s) :
    (s.apply r).Folds .unbounded (i.reference r.names x) := by
  cases h with
  | done opcode due =>
    simp only [Instruction.reference, opcode]
    exact due.folds_reference hr
  | unknown opcode =>
    simp only [Instruction.reference, opcode]
    exact hr
  | failed opcode refused =>
    simp only [Instruction.reference, opcode, refused.reference_eq hr]
    exact hr

theorem overflow_iff (h : Taken .unbounded r i s) {register : String} {bits : Int} :
    (∃ f, s.failure? = some f ∧ f.fault = .overflow register bits) ↔
      i.Overflows r.names x register ∧ bits = 14000 := by
  constructor
  · rintro ⟨f, failure, overflow⟩
    cases h with
    | done opcode due => cases failure
    | unknown opcode => cases failure
    | failed opcode refused =>
      cases failure
      generalize operands : i.operands = given at refused
      cases refused with
      | @overflow target source rest a b total left right folded exceeds =>
        cases overflow
        cases folded
        obtain rfl := hr.get?_eq left
        obtain rfl := hr.get?_eq right
        rw [Width.holds_unbounded_iff, not_lt] at exceeds
        exact ⟨⟨source, rest, (Opcode.name_of_ofName? opcode).symm, operands,
          Registers.mem_names_of_get? left, Registers.mem_names_of_get? right, exceeds⟩, rfl⟩
      | _ => cases overflow
  · rintro ⟨⟨source, rest, add, operands, target_mem, source_mem, past⟩, rfl⟩
    have opcode : Opcode.ofName? i.opcode = some .add := Opcode.ofName?_eq_some_iff.mpr add.symm
    have refused : Effect.Refused .unbounded r .add i.operands (.overflow register 14000) := by
      rw [operands]
      refine .overflow (hr.get?_of_mem target_mem) (hr.get?_of_mem source_mem) rfl ?_
      rw [Width.holds_unbounded_iff, not_lt]
      exact past
    -- On the same registers no other step can be taken than the one that overflows.
    obtain rfl := h.unique (.failed opcode refused)
    exact ⟨_, rfl, rfl⟩

end Step.Taken

end

section
variable {c : Config} {r : Registers} {number : Int} {lines : List String} {steps : List Step}
  {ending : Ending}

theorem Walk.taken_at (h : Walk c r number lines steps ending) {k : Nat} {s : Step}
    (at_k : steps[k]? = some s) :
    Step.Taken c.width (Step.applyAll r (steps.take k)) s.instruction s := by
  induction h generalizing k with
  | done => cases at_k
  | blank parse rest ih => exact ih at_k
  | step parse taken goesOn rest ih =>
    cases k with
    | zero =>
      cases at_k
      rwa [taken.instruction_eq]
    | succ k => exact ih at_k
  | abort parse taken failed policy =>
    cases k with
    | zero =>
      cases at_k
      rwa [taken.instruction_eq]
    | succ k => cases at_k
  | broken parse stuck => cases at_k

/-- After any number of steps the registers are those of the reference. -/
theorem Walk.folds_reference (h : Walk c r number lines steps ending)
    (unbounded : c.width = .unbounded) {x : Valuation} (hr : r.Folds .unbounded x) {k : Nat}
    (le : k ≤ steps.length) : (Step.applyAll r (steps.take k)).Folds .unbounded
      (Instruction.referenceFrom r.names x ((steps.take k).map Step.instruction)) := by
  induction k with
  | zero => exact hr
  | succ k ih =>
    have before := ih (by omega)
    have taken := h.taken_at (List.getElem?_eq_getElem (show k < steps.length by omega))
    rw [unbounded] at taken
    have after := taken.folds_reference before
    rw [Step.names_applyAll] at after
    rw [List.take_succ_eq_append_getElem (by omega), Step.applyAll, Instruction.referenceFrom,
      List.map_append, List.foldl_append, List.foldl_append]
    exact after

end

/-- What a report of unbounded registers says, against the reference from zeros. -/
structure Report.AgreesWithReference (names : List String) (policy : Policy)
    (program : List Instruction) (r : Report) : Prop where
  registers : r.registers.cells = names.map fun name => (name, Instruction.referenceFrom names
    (fun _ => 0) (r.steps.map Step.instruction) name)
  /-- A step overflows if it adds what the reference, come as far, may not add. -/
  overflows : ∀ (k : Nat) (s : Step), r.steps[k]? = some s → ∀ (register : String) (bits : Int),
    (∃ f, s.failure? = some f ∧ f.fault = .overflow register bits) ↔
      s.instruction.Overflows names (Instruction.referenceFrom names (fun _ => 0)
        ((r.steps.take k).map Step.instruction)) register ∧ bits = 14000
  skip : policy = .skip → r.steps.map Step.instruction = program
  /-- The program as far as the first failure, or all of it if nothing fails. -/
  abort : policy = .abort →
    (r.steps.map Step.instruction = program ∧ r.status = .completed ∧
        ∀ s ∈ r.steps, s.failed = false) ∨
      ∃ init last, r.steps = init ++ [last] ∧ (∀ s ∈ init, s.failed = false) ∧
        last.failed = true ∧ r.steps.map Step.instruction <+: program ∧
        r.status = .aborted last.line

theorem Machine.Walks.agreesWithReference {m : Machine} (unbounded : m.config.width = .unbounded)
    {source : String} {steps : List Step} {status : Status}
    (walks : m.Walks source steps (.finished status)) :
    (Report.ofSteps m.registers.reset steps status).AgreesWithReference m.registers.names
      m.config.policy (Program.parse m.config.comments source) := by
  have zeros : m.registers.reset.Folds .unbounded fun _ => 0 :=
    Registers.folds_ofNames .unbounded m.registers.names
  have exact {k : Nat} (le : k ≤ steps.length) := walks.folds_reference unbounded zeros le
  rw [Registers.names_reset] at exact
  exact {
    registers := by
      have cells := (exact (Nat.le_refl steps.length)).cells_eq
      rw [List.take_length, Step.names_applyAll, Registers.names_reset] at cells
      exact cells
    overflows := by
      intro k s at_k register bits
      have short : k < steps.length := (List.getElem?_eq_some_iff.mp at_k).1
      have taken := walks.taken_at at_k
      rw [unbounded] at taken
      have overflow : (∃ f, s.failure? = some f ∧ f.fault = .overflow register bits) ↔ _ :=
        taken.overflow_iff (exact (Nat.le_of_lt short))
      rw [Step.names_applyAll, Registers.names_reset] at overflow
      exact overflow
    skip := fun skip => walks.instructions_eq (walks.completed_of_skip skip)
    abort := by
      intro abort
      rcases Walk.completed_or_aborted walks rfl with ⟨completed, succeed⟩ |
        ⟨init, last, split, _, failed, others, aborted⟩
      · exact .inl ⟨walks.instructions_eq completed, completed, succeed abort⟩
      · exact .inr ⟨init, last, split, others, failed, walks.instructions_isPrefix, aborted⟩ }

/-- The reference reads a literal by its spelling. With unbounded registers every run gives a
report, the registers at its end are those of the reference, and its steps overflow exactly where the
reference comes to the guard. -/
theorem Machine.unbounded_arithmetic_is_exact (m : Machine)
    (unbounded : m.config.width = .unbounded) (source : String) :
    (∀ token v, Literal.integer? token = some v ↔ ∃ sign ds, Literal.Spells token sign ds ∧
      Literal.FewEnough ds ∧ sign.apply (Literal.placeValue ds) = v) ∧
    (m.running = false → ∃ report, (m.run source).2 = .ok report) ∧
    ∀ report, (m.run source).2 = .ok report → report.AgreesWithReference m.registers.names
      m.config.policy (Program.parse m.config.comments source) := by
  refine ⟨fun token v => Literal.integer?_eq_some_iff, fun idle => ?_, fun report h => ?_⟩
  · exact exists_report idle (unbounded ▸ trivial) source
  · obtain ⟨steps, status, _, walks, rfl⟩ := walks_of_report h
    exact walks.agreesWithReference unbounded

namespace Instruction
variable {names : List String} {x : Valuation} {name : String}

theorem reference_of_sum {i : Instruction} {target source : String} {rest : List String}
    (add : i.opcode = "ADD") (operands : i.operands = target :: source :: rest)
    (target_mem : target ∈ names) (source_mem : source ∈ names)
    (small : (x target + x source).natAbs < 2 ^ 14000) :
    i.reference names x = Function.update x target (x target + x source) := by
  have opcode : Opcode.ofName? i.opcode = some .add := Opcode.ofName?_eq_some_iff.mpr add.symm
  simp only [reference, opcode, operands, Opcode.reference, Opcode.assigned?, target_mem,
    source_mem, small, and_self, ↓reduceIte]

theorem referenceFrom_doublings (mem : name ∈ names) {program : List Instruction}
    (doublings : ∀ i ∈ program, i.opcode = "ADD" ∧ i.operands = [name, name])
    (small : 2 ^ program.length * (x name).natAbs < 2 ^ 14000) :
    referenceFrom names x program name = 2 ^ program.length * x name := by
  induction program generalizing x with
  | nil => simp [referenceFrom]
  | cons i program ih =>
    obtain ⟨⟨add, operands⟩, others⟩ := List.forall_mem_cons.mp doublings
    have double : (x name + x name).natAbs = 2 * (x name).natAbs := by omega
    have next : 2 ^ program.length * (x name + x name).natAbs < 2 ^ 14000 := by
      rw [double, ← mul_assoc, ← pow_succ]
      exact small
    have sum : (x name + x name).natAbs < 2 ^ 14000 :=
      Nat.lt_of_le_of_lt (Nat.le_mul_of_pos_left _ (Nat.two_pow_pos _)) next
    rw [referenceFrom, List.foldl_cons, reference_of_sum add operands mem mem sum,
      ← referenceFrom, ih others (by rwa [Function.update_self]), Function.update_self,
      List.length_cons, pow_succ]
    ring

end Instruction

/-- Loads the greatest power of two that is no longer than a literal, and doubles it as often as is
said. -/
def risingPowers (times : Nat) : List Instruction :=
  Opcode.load.on ["R1", Numeral.text (Width.size 13287)] ::
    List.replicate times (Opcode.add.on ["R1", "R1"])

theorem written_risingPowers (times : Nat) : ∀ i ∈ risingPowers times, i.Written true := by
  have token : IsToken true "R1" := ⟨by decide, fun _ => ⟨by decide, by decide⟩⟩
  intro i hi
  rcases List.mem_cons.mp hi with rfl | hi
  · exact Opcode.load.written_on
      (List.forall_mem_cons.mpr ⟨token, List.forall_mem_singleton.mpr (isToken_text true _)⟩)
  · rw [(List.mem_replicate.mp hi).2]
    exact Opcode.add.written_on (by simpa using token)

theorem exists_of_risingPowers {times : Nat} {program : List Instruction}
    (h : program = (risingPowers (times + 1)).mapIdx fun k i => i.printed (1 + k)) :
    ∃ first rest last, program = first :: (rest ++ [last]) ∧ first.opcode = "LOAD" ∧
      first.operands = ["R1", Numeral.text (Width.size 13287)] ∧ rest.length = times ∧
      ∀ i ∈ rest ++ [last], i.opcode = "ADD" ∧ i.operands = ["R1", "R1"] := by
  rw [risingPowers, List.mapIdx_cons, List.replicate_succ', List.mapIdx_append] at h
  refine ⟨_, _, _, h, rfl, rfl, by simp, ?_⟩
  rw [List.forall_mem_append]
  constructor
  · intro i hi
    obtain ⟨k, short, rfl⟩ := List.mem_mapIdx.mp hi
    rw [List.getElem_replicate]
    exact ⟨rfl, rfl⟩
  · rw [List.forall_mem_singleton]
    exact ⟨rfl, rfl⟩

theorem Instruction.referenceFrom_rising {first : Instruction} {rest : List Instruction}
    (load : first.opcode = "LOAD")
    (operands : first.operands = ["R1", Numeral.text (Width.size 13287)])
    (doublings : ∀ i ∈ rest, i.opcode = "ADD" ∧ i.operands = ["R1", "R1"])
    (few : rest.length + 13287 < 14000) :
    referenceFrom ["R1", "R2", "R3"] (fun _ => 0) (first :: rest) "R1" =
      Width.size (rest.length + 13287) := by
  have short : (Width.size 13287 : Int).natAbs < Nat.pow 10 Literal.maxSignificant := by
    rw [Int.natAbs_natCast]
    exact Width.size_recallableBits_lt
  have holds : Width.unbounded.Holds (Width.size 13287) :=
    Nat.lt_of_lt_of_le short Literal.ten_pow_maxSignificant_le
  have denoted :
      Literal.integer? (Numeral.text (Width.size 13287)) = some (Width.size 13287 : Int) :=
    Literal.integer?_of_read (Literal.read_text_of_holds rfl holds short)
  have loaded : first.reference ["R1", "R2", "R3"] (fun _ => 0) =
      Function.update (fun _ => 0) "R1" (Width.size 13287 : Int) := by
    have opcode : Opcode.ofName? first.opcode = some .load :=
      Opcode.ofName?_eq_some_iff.mpr load.symm
    simp only [reference, opcode, operands, Opcode.reference, Opcode.assigned?, List.mem_cons,
      true_or, ↓reduceIte, denoted, Option.map_some]
  have power := Width.size_add rest.length 13287
  have below : Width.size (rest.length + 13287) < 2 ^ 14000 := by
    rw [← Width.size_eq]
    exact Width.size_lt_size few
  rw [referenceFrom, List.foldl_cons, ← referenceFrom, loaded,
    referenceFrom_doublings (by simp) doublings, Function.update_self, power]
  · push_cast
    rfl
  · rw [Function.update_self, Int.natAbs_natCast, ← power]
    exact below

/-- What is loaded first comes to `2 ^ 13999` after 712 doublings, and one more overflows. -/
theorem Machine.doubling_comes_to_guard :
    (ofConfig (.withWidth .default .unbounded)).config.width = .unbounded ∧
    ∃ report s f, ((ofConfig (.withWidth .default .unbounded)).run
        (Program.print (risingPowers 713))).2 = .ok report ∧
      report.steps[713]? = some s ∧ s.failure? = some f ∧ f.fault = .overflow "R1" 14000 := by
  obtain ⟨-, returns, agrees⟩ := unbounded_arithmetic_is_exact
    (ofConfig (.withWidth .default .unbounded)) rfl (Program.print (risingPowers 713))
  obtain ⟨report, ran⟩ := returns rfl
  have reference := agrees report ran
  have carried : report.steps.map Step.instruction =
      (risingPowers 713).mapIdx fun k i => i.printed (1 + k) := by
    rw [← Program.parse_print (written_risingPowers 713)]
    exact reference.skip rfl
  obtain ⟨first, rest, last, split, load, operands, length, doublings⟩ :=
    exists_of_risingPowers carried
  have at_last : (report.steps.map Step.instruction)[713]? = some last := by
    rw [split, List.getElem?_cons_succ, List.getElem?_append_right (by omega), length]
    rfl
  rw [List.getElem?_map] at at_last
  obtain ⟨s, at_step, instruction⟩ := Option.map_eq_some_iff.mp at_last
  have before : (report.steps.take 713).map Step.instruction = first :: rest := by
    rw [List.map_take, split, List.take_succ_cons, List.take_left' length]
  obtain ⟨add, summands⟩ := doublings last (by simp)
  have reached := Instruction.referenceFrom_rising load operands
    (fun i hi => doublings i (List.mem_append_left _ hi)) (by omega)
  have past : last.Overflows ["R1", "R2", "R3"]
      (Instruction.referenceFrom ["R1", "R2", "R3"] (fun _ => 0) (first :: rest)) "R1" := by
    refine ⟨"R1", [], add, summands, by simp, by simp, ?_⟩
    have sum : (Width.size 13999 + Width.size 13999 : Int).natAbs = Width.size 14000 := by
      have double : Width.size 14000 = 2 * Width.size 13999 := Width.size_succ 13999
      omega
    rw [reached, length, sum]
    exact (Width.size_eq 14000).ge
  rw [← before, ← instruction] at past
  obtain ⟨f, failure, overflow⟩ := (reference.overflows 713 s at_step "R1" 14000).mpr ⟨past, rfl⟩
  exact ⟨rfl, report, s, f, ran, at_step, failure, overflow⟩

end RegisterMachine
