import RegisterMachine.Proofs.Literal

/-! All that finding an effect can come to, one rule for each way. What holds of every effect or of
every excess is proved by cases on these rules, and no other module opens `find`. -/
namespace RegisterMachine

def Opcode.registers : Opcode → List String → List String
  | add, operands => operands.take 2
  | _, operands => operands.take 1

namespace Effect

/-- The effects that instructions have. -/
inductive Due (w : Width) (r : Registers) : Opcode → List String → Effect → Prop
  | load {target token : String} {rest : List String} {old v : Int} {low high : Option Int}
      (declared : r.get? target = some old) (bounds : w.bounds = .ok (low, high))
      (read : Literal.read low high token = .ok v) :
      Due w r .load (target :: token :: rest) (.load target token v)
  | add {target source : String} {rest : List String} {a b total : Int}
      (left : r.get? target = some a) (right : r.get? source = some b)
      (folded : w.fold (a + b) = .ok total) (holds : w.Holds total) :
      Due w r .add (target :: source :: rest) (.add target source total)
  | print {source : String} {rest : List String} {v : Int}
      (declared : r.get? source = some v) (fits : Numeral.Fits v) :
      Due w r .print (source :: rest) (.print source v)

/-- The instructions that fail, and why. -/
inductive Refused (w : Width) (r : Registers) : Opcode → List String → Fault → Prop
  | arity {op : Opcode} {operands : List String} (few : operands.length < op.arity) :
      Refused w r op operands (.arity op.name op.arity operands.length)
  | loadTarget {target token : String} {rest : List String} (undeclared : r.get? target = none) :
      Refused w r .load (target :: token :: rest) (r.unknown target)
  | defect {target token : String} {rest : List String} {old : Int} {low high : Option Int}
      {defect : Literal.Defect} (declared : r.get? target = some old)
      (bounds : w.bounds = .ok (low, high)) (read : Literal.read low high token = .error defect)
      (writable : defect.Writable) :
      Refused w r .load (target :: token :: rest) (.literal token defect)
  | addTarget {target source : String} {rest : List String} (undeclared : r.get? target = none) :
      Refused w r .add (target :: source :: rest) (r.unknown target)
  | addSource {target source : String} {rest : List String} {a : Int}
      (left : r.get? target = some a) (undeclared : r.get? source = none) :
      Refused w r .add (target :: source :: rest) (r.unknown source)
  | overflow {target source : String} {rest : List String} {a b total : Int}
      (left : r.get? target = some a) (right : r.get? source = some b)
      (folded : w.fold (a + b) = .ok total) (exceeds : ¬w.Holds total) :
      Refused w r .add (target :: source :: rest) (.overflow target Width.unboundedBits)
  | printSource {source : String} {rest : List String} (undeclared : r.get? source = none) :
      Refused w r .print (source :: rest) (r.unknown source)

/-- The instructions that come to nothing, and what they exceed. -/
inductive Stuck (w : Width) (r : Registers) : Opcode → List String → Numeral.Excess → Prop
  | bounds {target token : String} {rest : List String} {old : Int} {e : Numeral.Excess}
      (declared : r.get? target = some old) (bounds : w.bounds = .error e) :
      Stuck w r .load (target :: token :: rest) e
  | defect {target token : String} {rest : List String} {old : Int} {low high : Option Int}
      {defect : Literal.Defect} (declared : r.get? target = some old)
      (bounds : w.bounds = .ok (low, high)) (read : Literal.read low high token = .error defect)
      (unwritable : ¬defect.Writable) :
      Stuck w r .load (target :: token :: rest) .written
  | sum {target source : String} {rest : List String} {a b : Int} {e : Numeral.Excess}
      (left : r.get? target = some a) (right : r.get? source = some b)
      (folded : w.fold (a + b) = .error e) :
      Stuck w r .add (target :: source :: rest) e
  | print {source : String} {rest : List String} {v : Int}
      (declared : r.get? source = some v) (unfit : ¬Numeral.Fits v) :
      Stuck w r .print (source :: rest) .written

theorem operand_eq_ok_iff {low high : Option Int} {token : String} {v : Int} :
    Literal.operand low high token = .ok v ↔ Literal.read low high token = .ok v := by
  unfold Literal.operand
  cases Literal.read low high token with
  | ok u => simp
  | error defect =>
    by_cases h : defect.Writable <;> simp [h]

theorem operand_eq_fault_iff {low high : Option Int} {token : String} {fault : Fault} :
    Literal.operand low high token = .error (.fault fault) ↔
      ∃ defect, Literal.read low high token = .error defect ∧ defect.Writable ∧
        .literal token defect = fault := by
  unfold Literal.operand
  cases Literal.read low high token with
  | ok u => simp
  | error defect =>
    by_cases h : defect.Writable <;> simp [h]

theorem operand_eq_excess_iff {low high : Option Int} {token : String} {e : Numeral.Excess} :
    Literal.operand low high token = .error (.excess e) ↔
      e = .written ∧ ∃ defect, Literal.read low high token = .error defect ∧ ¬defect.Writable := by
  unfold Literal.operand
  cases Literal.read low high token with
  | ok u => simp
  | error defect =>
    by_cases h : defect.Writable <;> simp [h, eq_comm]

theorem due_of_find {w : Width} {r : Registers} {op : Opcode} {operands : List String} {e : Effect}
    (h : find w r op operands = .ok e) : Due w r op operands e := by
  unfold find at h
  split at h
  next target token rest =>
    unfold load? at h
    split at h
    · cases h
    next old declared =>
      split at h
      · cases h
      next low high bounds =>
        cases read : Literal.operand low high token with
        | error obstacle => simp [read, Except.map] at h
        | ok v =>
          simp only [read, Except.map, Except.ok.injEq] at h
          subst h
          exact .load declared bounds (operand_eq_ok_iff.mp read)
  next target source rest =>
    unfold add? at h
    split at h
    · cases h
    · cases h
    next a b left right =>
      split at h
      · cases h
      next total folded =>
        split at h
        next holds =>
          cases h
          exact .add left right folded holds
        · cases h
  next source rest =>
    unfold print? at h
    split at h
    · cases h
    next v declared =>
      split at h
      next fits =>
        cases h
        exact .print declared fits
      · cases h
  · cases h

theorem find_of_due {w : Width} {r : Registers} {op : Opcode} {operands : List String} {e : Effect}
    (h : Due w r op operands e) : find w r op operands = .ok e := by
  cases h with
  | load declared bounds read =>
    simp [find, load?, declared, bounds, operand_eq_ok_iff.mpr read, Except.map]
  | add left right folded holds => simp [find, add?, left, right, folded, holds]
  | print declared fits => simp [find, print?, declared, fits]

theorem refused_of_find {w : Width} {r : Registers} {op : Opcode} {operands : List String}
    {fault : Fault} (h : find w r op operands = .error (.fault fault)) :
    Refused w r op operands fault := by
  unfold find at h
  split at h
  next target token rest =>
    unfold load? at h
    split at h
    next undeclared =>
      cases h
      exact .loadTarget undeclared
    next old declared =>
      split at h
      · cases h
      next low high bounds =>
        cases read : Literal.operand low high token with
        | ok v => simp [read, Except.map] at h
        | error obstacle =>
          simp only [read, Except.map, Except.error.injEq] at h
          subst h
          obtain ⟨defect, found, writable, rfl⟩ := operand_eq_fault_iff.mp read
          exact .defect declared bounds found writable
  next target source rest =>
    unfold add? at h
    split at h
    next undeclared =>
      cases h
      exact .addTarget undeclared
    next a left undeclared =>
      cases h
      exact .addSource left undeclared
    next a b left right =>
      split at h
      · cases h
      next total folded =>
        split at h
        · cases h
        next exceeds =>
          cases h
          exact .overflow left right folded exceeds
  next source rest =>
    unfold print? at h
    split at h
    next undeclared =>
      cases h
      exact .printSource undeclared
    next v declared =>
      split at h <;> cases h
  next load add print =>
    cases h
    apply Refused.arity
    rcases operands with _ | ⟨first, _ | ⟨second, rest⟩⟩
    · cases op <;> decide
    · cases op with
      | load => exact Nat.lt_succ_self 1
      | add => exact Nat.lt_succ_self 1
      | print => exact (print first [] rfl rfl).elim
    · cases op with
      | load => exact (load first second rest rfl rfl).elim
      | add => exact (add first second rest rfl rfl).elim
      | print => exact (print first (second :: rest) rfl rfl).elim

theorem find_of_refused {w : Width} {r : Registers} {op : Opcode} {operands : List String}
    {fault : Fault} (h : Refused w r op operands fault) :
    find w r op operands = .error (.fault fault) := by
  cases h with
  | arity few =>
    rcases operands with _ | ⟨first, _ | ⟨second, rest⟩⟩
    · cases op <;> rfl
    · cases op with
      | load => rfl
      | add => rfl
      | print => exact absurd few (Nat.lt_irrefl 1)
    · have two : op.arity ≤ 2 := by cases op <;> decide
      simp only [List.length_cons] at few
      omega
  | loadTarget undeclared => simp [find, load?, undeclared]
  | defect declared bounds read writable =>
    simp [find, load?, declared, bounds, Except.map,
      operand_eq_fault_iff.mpr ⟨_, read, writable, rfl⟩]
  | addTarget undeclared => simp [find, add?, undeclared]
  | addSource left undeclared => simp [find, add?, left, undeclared]
  | overflow left right folded exceeds => simp [find, add?, left, right, folded, exceeds]
  | printSource undeclared => simp [find, print?, undeclared]

theorem stuck_of_find {w : Width} {r : Registers} {op : Opcode} {operands : List String}
    {e : Numeral.Excess} (h : find w r op operands = .error (.excess e)) :
    Stuck w r op operands e := by
  unfold find at h
  split at h
  next target token rest =>
    unfold load? at h
    split at h
    · cases h
    next old declared =>
      split at h
      next bounds =>
        cases h
        exact .bounds declared bounds
      next low high bounds =>
        cases read : Literal.operand low high token with
        | ok v => simp [read, Except.map] at h
        | error obstacle =>
          simp only [read, Except.map, Except.error.injEq] at h
          subst h
          obtain ⟨rfl, defect, found, unwritable⟩ := operand_eq_excess_iff.mp read
          exact .defect declared bounds found unwritable
  next target source rest =>
    unfold add? at h
    split at h
    · cases h
    · cases h
    next a b left right =>
      split at h
      next folded =>
        cases h
        exact .sum left right folded
      · split at h <;> cases h
  next source rest =>
    unfold print? at h
    split at h
    · cases h
    next v declared =>
      split at h
      · cases h
      next unfit =>
        cases h
        exact .print declared unfit
  · cases h

theorem find_of_stuck {w : Width} {r : Registers} {op : Opcode} {operands : List String}
    {e : Numeral.Excess} (h : Stuck w r op operands e) :
    find w r op operands = .error (.excess e) := by
  cases h with
  | bounds declared bounds => simp [find, load?, declared, bounds]
  | defect declared bounds read unwritable =>
    simp [find, load?, declared, bounds, Except.map,
      operand_eq_excess_iff.mpr ⟨rfl, _, read, unwritable⟩]
  | sum left right folded => simp [find, add?, left, right, folded]
  | print declared unfit => simp [find, print?, declared, unfit]

theorem find_take_arity (w : Width) (r : Registers) (op : Opcode) (operands : List String) :
    find w r op (operands.take op.arity) = find w r op operands := by
  rcases operands with _ | ⟨first, _ | ⟨second, rest⟩⟩ <;> cases op <;> rfl

theorem find_congr {w : Width} {r r' : Registers} {op : Opcode} {operands : List String}
    (names : r.names = r'.names)
    (values : ∀ name ∈ op.registers operands, r.get? name = r'.get? name) :
    find w r op operands = find w r' op operands := by
  have unknown (name : String) : r.unknown name = r'.unknown name := by
    rw [Registers.unknown, Registers.unknown, names]
  rcases operands with _ | ⟨first, _ | ⟨second, rest⟩⟩
  · cases op <;> rfl
  · have head : r.get? first = r'.get? first :=
      values first (by cases op <;> simp [Opcode.registers])
    cases op with
    | load | add => rfl
    | print => simp only [find, print?, head, unknown]
  · have head : r.get? first = r'.get? first :=
      values first (by cases op <;> simp [Opcode.registers])
    cases op with
    | load => simp only [find, load?, head, unknown]
    | add =>
      have next : r.get? second = r'.get? second := values second (by simp [Opcode.registers])
      simp only [find, add?, head, next, unknown]
    | print => simp only [find, print?, head, unknown]

end Effect
end RegisterMachine
