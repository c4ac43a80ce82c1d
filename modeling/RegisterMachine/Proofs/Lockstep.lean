import RegisterMachine.Proofs.Exact

/-! Two widths in lockstep. A run on a narrow width does the same steps as one on a wider width as
long as every value that is loaded there is in the narrow range, and the narrow registers are at
every point the wide ones folded. -/
namespace RegisterMachine

theorem Literal.read_of_holds {w₁ w₂ : Width} (le : w₁ ≤ w₂) {low high : Option Int}
    (bounds : w₂.bounds = .ok (low, high)) {token : String} (formed : WellFormed token.toList)
    (short : Short token.toList) (holds : w₁.Holds (value token.toList)) :
    read low high token = .ok (value token.toList) := by
  refine read_eq_ok_iff.mpr ⟨formed, short, rfl, ?_⟩
  cases w₂ with
  | unbounded =>
    cases bounds
    exact within_none _
  | bits n hn =>
    cases w₁ with
    | unbounded => exact absurd le Width.not_unbounded_le_bits
    | bits m hm =>
      have := Width.half_le_half (Width.bits_le_bits.mp le)
      obtain ⟨least, greatest⟩ := holds
      simp only [Width.bounds] at bounds
      split at bounds
      · cases bounds
      · cases bounds
        exact (within_some _ _ _).mpr ⟨by omega, by omega⟩

namespace Registers

def folded (w : Width) (r : Registers) : Registers :=
  ⟨r.cells.map fun cell => (cell.1, w.wrap cell.2)⟩

variable {w : Width} {r : Registers}

theorem get?_folded (name : String) : (r.folded w).get? name = (r.get? name).map w.wrap := by
  obtain ⟨cells⟩ := r
  simp only [get?, folded]
  induction cells with
  | nil => rfl
  | cons cell rest ih =>
    obtain ⟨first, v⟩ := cell
    by_cases hne : name = first
    · simp [hne]
    · rw [List.map_cons, lookup_cons_ne hne, lookup_cons_ne hne, ih]

theorem folded_set (name : String) (v : Int) :
    (r.set name v).folded w = (r.folded w).set name (w.wrap v) := by
  simp only [folded, set, List.map_map]
  congr 1
  apply List.map_congr_left
  intro cell _
  simp only [Function.comp_apply]
  split <;> rfl

theorem folded_ofNames (names : List String) : (ofNames names).folded w = ofNames names := by
  simp [folded, ofNames, Width.wrap_of_holds w.holds_zero]

end Registers

inductive Outcome where
  | done
  | unknownOpcode
  | failed
  deriving DecidableEq, Repr

def Step.outcome (s : Step) : Outcome :=
  match s.verdict with
  | .done _ => .done
  | .unknownOpcode => .unknownOpcode
  | .failed _ => .failed

theorem Step.failed_iff (s : Step) : s.failed = true ↔ s.outcome = .failed := by
  obtain ⟨i, verdict⟩ := s
  cases verdict <;> simp [failed, failure?, outcome]

/-- What lets a narrower width follow a step: the value it loads, if any, is in the narrow range,
and no sum of it exceeded the wider width. -/
structure Step.Fits (w₁ w₂ : Width) (s : Step) : Prop where
  load : ∀ target token rest, s.done? = some (.load, target :: token :: rest) →
    w₁.Holds (Literal.value token.toList)
  sum : w₂ = .unbounded → ∀ f ∈ s.failure?, ∀ register bits, f.fault ≠ .overflow register bits

section
variable {w₁ w₂ : Width} (le : w₁ ≤ w₂) {r : Registers}
include le

namespace Effect
variable {op : Opcode} {operands : List String}

theorem Due.apply_folded {e₁ e₂ : Effect} (h₁ : Due w₁ (r.folded w₁) op operands e₁)
    (h₂ : Due w₂ r op operands e₂) : e₁.apply (r.folded w₁) = (e₂.apply r).folded w₁ := by
  cases h₁ with
  | load declared₁ bounds₁ read₁ =>
    cases h₂ with
    | load declared₂ bounds₂ read₂ =>
      have holds := Literal.holds_of_read bounds₁ read₁
      obtain ⟨_, _, rfl, _⟩ := Literal.read_eq_ok_iff.mp read₁
      obtain ⟨_, _, rfl, _⟩ := Literal.read_eq_ok_iff.mp read₂
      rw [apply, apply, Registers.folded_set, Width.wrap_of_holds holds]
  | add left₁ right₁ folded₁ holds₁ =>
    cases h₂ with
    | add left₂ right₂ folded₂ holds₂ =>
      rw [Registers.get?_folded, left₂] at left₁
      rw [Registers.get?_folded, right₂] at right₁
      cases left₁
      cases right₁
      rw [apply, apply, Registers.folded_set, Width.eq_wrap_of_fold folded₁,
        Width.eq_wrap_of_fold folded₂, Width.wrap_add_wrap, Width.wrap_wrap_of_le le]
  | print declared₁ fits₁ =>
    cases h₂ with
    | print declared₂ fits₂ => rfl

omit le in
theorem Due.arity_le {w : Width} {e : Effect} (h : Due w r op operands e) :
    op.arity ≤ operands.length := by
  cases h <;> exact Nat.le_add_left _ _

/-- What the narrower width does the wider one does too, unless its sum exceeds it. -/
theorem Due.not_refused {e : Effect} {fault : Fault} (h₁ : Due w₁ (r.folded w₁) op operands e)
    (h₂ : Refused w₂ r op operands fault)
    (sum : w₂ = .unbounded → ∀ register bits, fault ≠ .overflow register bits) : False := by
  have enough := h₁.arity_le
  cases h₂ with
  | arity few => exact Nat.not_lt.mpr enough few
  | loadTarget undeclared =>
    cases h₁ with
    | load declared bounds read => simp [Registers.get?_folded, undeclared] at declared
  | defect declared₂ bounds₂ read₂ writable =>
    cases h₁ with
    | load declared bounds read =>
      have holds := Literal.holds_of_read bounds read
      obtain ⟨formed, short, rfl, _⟩ := Literal.read_eq_ok_iff.mp read
      rw [Literal.read_of_holds le bounds₂ formed short holds] at read₂
      cases read₂
  | addTarget undeclared =>
    cases h₁ with
    | add left right folded holds => simp [Registers.get?_folded, undeclared] at left
  | addSource _ undeclared =>
    cases h₁ with
    | add left right folded holds => simp [Registers.get?_folded, undeclared] at right
  | overflow left₂ right₂ folded₂ exceeds =>
    by_cases unbounded : w₂ = .unbounded
    · exact sum unbounded _ _ rfl
    · exact exceeds (Width.holds_of_fold folded₂ unbounded)
  | printSource undeclared =>
    cases h₁ with
    | print declared fits => simp [Registers.get?_folded, undeclared] at declared

theorem Due.not_refused_folded {e : Effect} {fault : Fault} (h₂ : Due w₂ r op operands e)
    (h₁ : Refused w₁ (r.folded w₁) op operands fault)
    (load : ∀ target token rest, op = .load → operands = target :: token :: rest →
      w₁.Holds (Literal.value token.toList)) : False := by
  have enough := h₂.arity_le
  cases h₁ with
  | arity few => exact Nat.not_lt.mpr enough few
  | loadTarget undeclared =>
    cases h₂ with
    | load declared bounds read => simp [Registers.get?_folded, declared] at undeclared
  | defect declared₁ bounds₁ read₁ writable =>
    cases h₂ with
    | load declared bounds read =>
      obtain ⟨formed, short, rfl, _⟩ := Literal.read_eq_ok_iff.mp read
      have holds := load _ _ _ rfl rfl
      rw [Literal.read_of_holds (Width.le_refl w₁) bounds₁ formed short holds] at read₁
      cases read₁
  | addTarget undeclared =>
    cases h₂ with
    | add left right folded holds => simp [Registers.get?_folded, left] at undeclared
  | addSource _ undeclared =>
    cases h₂ with
    | add left right folded holds => simp [Registers.get?_folded, right] at undeclared
  | overflow left₁ right₁ folded₁ exceeds =>
    cases h₂ with
    | add left right folded holds =>
      cases w₁ with
      | bits count two_le => exact exceeds (Width.holds_of_fold folded₁ (by simp))
      | unbounded =>
        cases w₂ with
        | bits count two_le => exact Width.not_unbounded_le_bits le
        | unbounded =>
          simp only [Registers.get?_folded, left, right, Option.map_some, Width.wrap_unbounded,
            Option.some.injEq] at left₁ right₁
          subst left₁ right₁
          rw [folded] at folded₁
          cases folded₁
          exact exceeds holds
  | printSource undeclared =>
    cases h₂ with
    | print declared fits => simp [Registers.get?_folded, declared] at undeclared

end Effect

theorem Step.Taken.lockstep {i : Instruction} {s₁ s₂ : Step} (h₁ : Taken w₁ (r.folded w₁) i s₁)
    (h₂ : Taken w₂ r i s₂) (fits : s₂.Fits w₁ w₂) :
    s₁.outcome = s₂.outcome ∧ s₁.apply (r.folded w₁) = (s₂.apply r).folded w₁ := by
  cases h₁ with
  | done opcode₁ due₁ =>
    cases h₂ with
    | done opcode₂ due₂ =>
      rw [opcode₁] at opcode₂
      cases opcode₂
      exact ⟨rfl, Effect.Due.apply_folded le due₁ due₂⟩
    | unknown opcode₂ =>
      rw [opcode₁] at opcode₂
      cases opcode₂
    | failed opcode₂ refused =>
      rw [opcode₁] at opcode₂
      cases opcode₂
      exact (Effect.Due.not_refused le due₁ refused fun h => fits.sum h _ rfl).elim
  | unknown opcode₁ =>
    cases h₂ with
    | unknown opcode₂ => exact ⟨rfl, rfl⟩
    | done opcode₂ due₂ =>
      rw [opcode₁] at opcode₂
      cases opcode₂
    | failed opcode₂ refused =>
      rw [opcode₁] at opcode₂
      cases opcode₂
  | failed opcode₁ refused₁ =>
    cases h₂ with
    | failed opcode₂ refused₂ => exact ⟨rfl, rfl⟩
    | unknown opcode₂ =>
      rw [opcode₁] at opcode₂
      cases opcode₂
    | done opcode₂ due₂ =>
      rw [opcode₁] at opcode₂
      cases opcode₂
      refine (Effect.Due.not_refused_folded le due₂ refused₁ ?_).elim
      intro target token rest load operands
      apply fits.load target token rest
      rw [done?_of_done opcode₁, load, operands]

end

/-- The steps of both widths are of the same instructions and come out the same, they end the same
way, and the narrow registers are the wide ones folded. -/
theorem Walk.lockstep {c₁ c₂ : Config} (comments : c₁.comments = c₂.comments)
    (policy : c₁.policy = c₂.policy) (le : c₁.width ≤ c₂.width) {r : Registers} {number : Int}
    {lines : List String} {steps₁ steps₂ : List Step} {status : Status} {ending : Ending}
    (h₁ : Walk c₁ (r.folded c₁.width) number lines steps₁ (.finished status))
    (h₂ : Walk c₂ r number lines steps₂ ending) (goes : ∀ i e, ending ≠ .broken i e)
    (fits : ∀ s ∈ steps₂, s.Fits c₁.width c₂.width) :
    (steps₁.map fun s => (s.instruction, s.outcome)) =
        (steps₂.map fun s => (s.instruction, s.outcome)) ∧
      ending = .finished status ∧
      Step.applyAll (r.folded c₁.width) steps₁ = (Step.applyAll r steps₂).folded c₁.width := by
  induction h₂ generalizing steps₁ with
  | done r number =>
    cases h₁ with
    | done => exact ⟨rfl, rfl, rfl⟩
  | blank parse rest₂ ih =>
    rw [← comments] at parse
    exact ih (h₁.rest_of_blank parse) goes fits
  | @step r number s lines i step₂ steps₂ ending parse taken₂ goesOn₂ rest₂ ih =>
    have fits₂ : step₂.Fits c₁.width c₂.width := fits step₂ (by simp)
    rw [← comments] at parse
    rcases h₁.cases_of_code parse with ⟨step₁, rest, rfl, taken₁, goesOn₁, rest₁⟩ |
      ⟨step₁, rfl, aborted, taken₁, failed₁, policy₁⟩ | ⟨e, rfl, broken, stuck⟩
    · obtain ⟨outcome, apply⟩ := taken₁.lockstep le taken₂ fits₂
      rw [apply] at rest₁
      obtain ⟨same, finished, registers⟩ := ih rest₁ goes fun s hs => fits s (by simp [hs])
      refine ⟨?_, finished, ?_⟩
      · rw [List.map_cons, List.map_cons, same, outcome, taken₁.instruction_eq,
          taken₂.instruction_eq]
      · rw [Step.applyAll_cons, Step.applyAll_cons, apply, registers]
    · obtain ⟨outcome, apply⟩ := taken₁.lockstep le taken₂ fits₂
      rw [Step.failed_iff, outcome, ← Step.failed_iff] at failed₁
      rw [policy] at policy₁
      exact absurd ⟨failed₁, policy₁⟩ goesOn₂
    · cases broken
  | @abort r number s lines i step₂ parse taken₂ failed₂ policy₂ =>
    have fits₂ : step₂.Fits c₁.width c₂.width := fits step₂ (by simp)
    rw [← comments] at parse
    rcases h₁.cases_of_code parse with ⟨step₁, rest, rfl, taken₁, goesOn₁, rest₁⟩ |
      ⟨step₁, rfl, aborted, taken₁, failed₁, policy₁⟩ | ⟨e, rfl, broken, stuck⟩
    · obtain ⟨outcome, apply⟩ := taken₁.lockstep le taken₂ fits₂
      rw [Step.failed_iff, ← outcome, ← Step.failed_iff] at failed₂
      rw [← policy] at policy₂
      exact absurd ⟨failed₂, policy₂⟩ goesOn₁
    · obtain ⟨outcome, apply⟩ := taken₁.lockstep le taken₂ fits₂
      refine ⟨?_, aborted.symm, apply⟩
      rw [List.map_singleton, List.map_singleton, outcome, taken₁.instruction_eq,
        taken₂.instruction_eq]
    · cases broken
  | broken parse stuck => exact absurd rfl (goes _ _)

end RegisterMachine
