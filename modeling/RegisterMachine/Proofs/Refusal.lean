import RegisterMachine.CommandLine.Options
import RegisterMachine.Proofs.Fields

/-! Configurations that a command line describes are accepted, or rejected with a reason. What comes
with a switch is text or nothing, and all that is read of it can be written, so no check of it ends
without a reason. -/
namespace RegisterMachine
namespace Config

/-- Whatever goes wrong, there is a reason to give. -/
def Reasoned {α : Type} (x : Except Failure α) : Prop :=
  ∀ failure, x = .error failure → ∃ reason, failure = .rejected reason

namespace Reasoned
variable {α β : Type}

theorem ok (a : α) : Reasoned (.ok a) := fun _ h => nomatch h

theorem rejected (reason : Rejection) : Reasoned (.error (.rejected reason) : Except Failure α) := by
  intro failure h
  cases h
  exact ⟨reason, rfl⟩

theorem refused {d : Datum} {written : String} (h : d.written? = some written)
    (reason : String → Rejection) : Reasoned (.error (refuse d reason) : Except Failure α) := by
  rw [refuse, h]
  exact rejected _

theorem bind {x : Except Failure α} {f : α → Except Failure β} (first : Reasoned x)
    (next : ∀ a, x = .ok a → Reasoned (f a)) : Reasoned (x >>= f) := by
  cases x with
  | error failure =>
    obtain ⟨reason, rfl⟩ := first failure rfl
    exact rejected reason
  | ok a => exact next a rfl

theorem map {x : Except Failure α} (h : Reasoned x) (f : α → β) : Reasoned (x.map f) := by
  cases x with
  | error failure =>
    obtain ⟨reason, rfl⟩ := h failure rfl
    exact rejected reason
  | ok a => exact ok _

theorem mapM {f : α → Except Failure β} {as : List α} (each : ∀ a ∈ as, Reasoned (f a)) :
    Reasoned (as.mapM f) := by
  induction as with
  | nil => exact ok _
  | cons a as ih =>
    obtain ⟨first, others⟩ := List.forall_mem_cons.mp each
    rw [List.mapM_cons]
    exact first.bind fun b _ => (ih others).bind fun bs _ => ok _

end Reasoned

inductive IsWord : Datum → Prop where
  | text (s : String) : IsWord (.text s)
  | nothing : IsWord (.list [])

theorem isWord_datum (a : CommandLine.Argument) : IsWord a.datum := by
  cases a with
  | word s => exact .text s
  | nothing => exact .nothing

section
variable {d : Datum} (h : IsWord d)
include h

theorem IsWord.ne_null : d ≠ .null := by
  cases h <;> exact fun same => nomatch same

theorem reasoned_readNames : Reasoned (readNames d) := by
  cases h with
  | nothing => exact .rejected _
  | text s =>
    refine Reasoned.bind (.ok _) fun pieces texts => Reasoned.bind (.mapM ?_) fun shown _ => ?_
    · intro piece mem
      cases texts
      obtain ⟨cs, _, rfl⟩ := List.mem_map.mp mem
      exact .ok _
    · split
      · exact .rejected _
      · exact .ok _

theorem readBits_eq_ok {bits : Datum} (read : readBits d = .ok bits) :
    bits = .null ∨ ∃ v, bits = .int v ∧ Numeral.Fits v := by
  cases h with
  | nothing => cases read
  | text s =>
    unfold readBits at read
    split at read
    · exact .inl (Except.ok.inj read).symm
    · simp only at read
      split at read
      next v spelled => exact .inr ⟨v, (Except.ok.inj read).symm, Numeral.fits_of_read? spelled⟩
      next => cases read

theorem reasoned_readBits : Reasoned (readBits d) := by
  cases h with
  | nothing => exact .refused rfl _
  | text s =>
    unfold readBits
    split
    · exact .ok _
    · simp only
      split
      · exact .ok _
      · exact .refused rfl _

theorem reasoned_readPolicy : Reasoned (readPolicy d) := by
  cases h with
  | nothing => exact .refused rfl _
  | text s =>
    simp only [readPolicy, Datum.shown?_text]
    split
    · exact .ok _
    · exact .refused rfl _

end

namespace Draft

theorem reasoned_checkName (s : String) : Reasoned (checkName (.text s)) := by
  simp only [checkName]
  split
  · exact .ok _
  · exact .refused rfl _

theorem reasoned_checkWidth {bits : Datum}
    (h : bits = .null ∨ ∃ v, bits = .int v ∧ Numeral.Fits v) : Reasoned (checkWidth bits) := by
  rcases h with rfl | ⟨v, rfl, fits⟩
  · exact .ok _
  · simp only [checkWidth]
    split
    · exact .ok _
    · have written : (Datum.int v).written? = some (Numeral.text v) := by
        rw [Datum.written?, Numeral.write?_of_fits fits]
      exact .refused written _

theorem reasoned_accept {draft : Draft} {names : List String} {policy : Policy}
    (named : draft.names = .list (names.map Datum.text))
    (bits : draft.bits = .null ∨ ∃ v, draft.bits = .int v ∧ Numeral.Fits v)
    (chosen : draft.policy = .policy policy) : Reasoned draft.accept := by
  have elements : draft.names.elements? = some (names.map Datum.text) := by
    rw [named]
    rfl
  unfold accept
  rw [elements]
  cases names with
  | nil => exact .rejected _
  | cons first others =>
    refine (reasoned_checkName first).bind fun name _ => Reasoned.bind (.mapM ?_) fun names _ => ?_
    · simpa using fun s _ => reasoned_checkName s
    · split
      · refine (reasoned_checkWidth bits).bind fun width _ => ?_
        rw [chosen]
        exact .ok _
      · exact .rejected _

section
variable {field : Option Datum} (h : ∀ d ∈ field, IsWord d)
include h

theorem reasoned_namesOf : Reasoned (namesOf field) := by
  cases field with
  | none => exact .ok _
  | some d =>
    rw [namesOf_of_ne_null (h d rfl).ne_null]
    exact (reasoned_readNames (h d rfl)).map _

theorem reasoned_bitsOf : Reasoned (bitsOf field) := by
  cases field with
  | none => exact .ok _
  | some d => exact reasoned_readBits (h d rfl)

theorem bitsOf_eq_ok {bits : Datum} (read : bitsOf field = .ok bits) :
    bits = .null ∨ ∃ v, bits = .int v ∧ Numeral.Fits v := by
  cases field with
  | none => exact .inr ⟨32, (Except.ok.inj read).symm, by decide +kernel⟩
  | some d => exact readBits_eq_ok (h d rfl) read

theorem reasoned_policyOf : Reasoned (policyOf field) := by
  cases field with
  | none => exact .ok _
  | some d =>
    rw [policyOf_of_ne_null (h d rfl).ne_null]
    exact (reasoned_readPolicy (h d rfl)).map _

end

end Draft

theorem reasoned_ofFields {fields : List (String × Datum)}
    (known : ∀ field ∈ fields, field.1 ∈ Draft.keys)
    (names : ∀ d ∈ fields.lookup "registers", IsWord d)
    (bits : ∀ d ∈ fields.lookup "word_bits", IsWord d)
    (policy : ∀ d ∈ fields.lookup "on_error", IsWord d) : Reasoned (ofFields fields) := by
  rw [ofFields, Draft.ofFields_eq known]
  have drafted : Reasoned (do
      let names ← Draft.namesOf (fields.lookup "registers")
      let bits ← Draft.bitsOf (fields.lookup "word_bits")
      let policy ← Draft.policyOf (fields.lookup "on_error")
      return { names, bits, policy, comments := Draft.commentsOf (fields.lookup "allow_comments") } :
        Except Failure Draft) :=
    (Draft.reasoned_namesOf names).bind fun _ _ => (Draft.reasoned_bitsOf bits).bind fun _ _ =>
      (Draft.reasoned_policyOf policy).bind fun _ _ => .ok _
  refine drafted.bind fun draft read => ?_
  obtain ⟨named, namesRead, read⟩ := bind_eq_ok_iff.mp read
  obtain ⟨wide, bitsRead, read⟩ := bind_eq_ok_iff.mp read
  obtain ⟨chosen, policyRead, read⟩ := bind_eq_ok_iff.mp read
  cases read
  obtain ⟨texts, -, rfl⟩ := Draft.namesOf_eq_ok namesRead
  obtain ⟨p, rfl⟩ := Draft.policyOf_eq_ok policyRead
  exact Draft.reasoned_accept rfl (Draft.bitsOf_eq_ok bits bitsRead) rfl

end Config

namespace CommandLine

theorem Options.reasoned_config (o : Options) : Config.Reasoned o.config := by
  obtain ⟨program, output, registers, wordBits, policy, comments⟩ := o
  have given (a : Option Argument) : ∀ d ∈ a.map Argument.datum, Config.IsWord d := by
    intro d hd
    obtain ⟨a, _, rfl⟩ := Option.map_eq_some_iff.mp hd
    exact Config.isWord_datum a
  refine Config.reasoned_ofFields ?_ ?_ ?_ ?_
  · cases registers <;> cases wordBits <;> simp [Config.Draft.keys]
  · have found := given registers
    cases registers <;> cases wordBits <;> exact found
  · have found := given wordBits
    cases registers <;> cases wordBits <;> exact found
  · intro d hd
    cases hd
    exact Config.isWord_datum _

end CommandLine
end RegisterMachine
