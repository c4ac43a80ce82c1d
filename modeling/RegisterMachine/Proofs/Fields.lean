import RegisterMachine.Config.Draft
import RegisterMachine.Proofs.Code
import RegisterMachine.Proofs.Spelling

/-! Configurations as named fields. What a field is read as can be told field by field, and a
configuration that is written as text, with blanks, empty pieces and capitals wherever these do not
matter, is read back as it was. -/
namespace RegisterMachine

theorem bind_eq_ok_iff {ε α β : Type} {x : Except ε α} {f : α → Except ε β} {b : β} :
    x >>= f = .ok b ↔ ∃ a, x = .ok a ∧ f a = .ok b := by
  cases x with
  | error e => simp [bind, Except.bind]
  | ok a => simp [bind, Except.bind]

namespace Config

def pieces : Datum → Except Failure (List Datum)
  | .text s => .ok (s.toList.splitOn ',' |>.map fun piece => Datum.text (String.ofList piece))
  | d => match d.elements? with
    | some items => .ok items
    | none => .error (.notIterable d.typeName)

def showPiece (piece : Datum) : Except Failure String :=
  match piece.shown? with
  | some s => .ok (Text.trim s)
  | none => .error .overlong

def gather (shown : List String) : Except Failure (List String) :=
  match shown.filter (· ≠ "") with
  | [] => .error (.rejected .emptyList)
  | names => .ok names

theorem readNames_eq (d : Datum) :
    readNames d = pieces d >>= fun pieces => pieces.mapM showPiece >>= gather := by
  cases d <;> rfl

theorem ne_nil_of_readNames {d : Datum} {names : List String} (read : readNames d = .ok names) :
    names ≠ [] := by
  rw [readNames_eq] at read
  obtain ⟨pieces, _, read⟩ := bind_eq_ok_iff.mp read
  obtain ⟨shown, _, read⟩ := bind_eq_ok_iff.mp read
  unfold gather at read
  split at read
  · cases read
  next some =>
    cases read
    exact some

namespace Draft

theorem checkName_text {s : String} (valid : isRegisterName s = true) :
    checkName (.text s) = .ok ⟨s, valid⟩ := dif_pos valid

theorem eq_text_of_checkName {d : Datum} {name : { s : String // isRegisterName s = true }}
    (h : checkName d = .ok name) : d = .text name.val := by
  unfold checkName at h
  split at h
  · split at h
    · cases h
      rfl
    · cases h
  · cases h

theorem eq_texts_of_mapM_checkName {ds : List Datum}
    {names : List { s : String // isRegisterName s = true }} (h : ds.mapM checkName = .ok names) :
    ds = names.map fun name => .text name.val := by
  induction ds generalizing names with
  | nil =>
    cases h
    rfl
  | cons d ds ih =>
    rw [List.mapM_cons, bind_eq_ok_iff] at h
    obtain ⟨first, read, h⟩ := h
    obtain ⟨others, reads, h⟩ := bind_eq_ok_iff.mp h
    cases h
    rw [eq_text_of_checkName read, ih reads, List.map_cons]

theorem mapM_checkName (names : List { s : String // isRegisterName s = true }) :
    (names.map fun name => Datum.text name.val).mapM checkName = .ok names := by
  induction names with
  | nil => rfl
  | cons name names ih =>
    rw [List.map_cons, List.mapM_cons, checkName_text name.property, ih]
    rfl

theorem accept_eq_ok_iff {draft : Draft} {c : Config} : draft.accept = .ok c ↔
    draft.names.elements? = some (c.names.map Datum.text) ∧ checkWidth draft.bits = .ok c.width ∧
      readPolicy draft.policy = .ok c.policy ∧ draft.comments = c.comments := by
  constructor
  · intro h
    unfold accept at h
    split at h
    · cases h
    · cases h
    next d rest elements =>
      obtain ⟨first, read, h⟩ := bind_eq_ok_iff.mp h
      obtain ⟨others, reads, h⟩ := bind_eq_ok_iff.mp h
      split at h
      next distinct =>
        obtain ⟨width, checked, h⟩ := bind_eq_ok_iff.mp h
        obtain ⟨policy, known, h⟩ := bind_eq_ok_iff.mp h
        cases h
        refine ⟨?_, checked, known, rfl⟩
        rw [elements, eq_text_of_checkName read, eq_texts_of_mapM_checkName reads, List.map_map]
        rfl
      · cases h
  · rintro ⟨elements, checked, known, same⟩
    obtain ⟨names, width, policy, comments, ne_nil, nodup, valid⟩ := c
    obtain rfl : draft.comments = comments := same
    obtain ⟨named, rfl⟩ : ∃ named : List { s // isRegisterName s = true },
        names = named.map Subtype.val :=
      ⟨names.attachWith _ valid, by simp⟩
    cases named with
    | nil => exact absurd rfl ne_nil
    | cons first others =>
      have listed : draft.names.elements? =
          some (.text first.val :: others.map fun name => .text name.val) := by
        rw [elements, List.map_map]
        rfl
      simp only [accept, listed, checkName_text first.property, mapM_checkName, checked, known, bind,
        Except.bind, dif_pos nodup]
      rfl

theorem checkWidth_int {n : Nat} (two_le : 2 ≤ n) : checkWidth (.int n) = .ok (.bits n two_le) := by
  have le : (2 : Int) ≤ n := by omega
  simp [checkWidth, Width.ofBits?, le]

theorem checkWidth_eq_ok_iff {d : Datum} {w : Width} : checkWidth d = .ok w ↔
    (d = .null ∧ w = .unbounded) ∨ ∃ (n : Nat) (two_le : 2 ≤ n), d = .int n ∧ w = .bits n two_le := by
  constructor
  · intro h
    unfold checkWidth at h
    split at h
    · cases h
      exact .inl ⟨rfl, rfl⟩
    next v =>
      unfold Width.ofBits? at h
      by_cases le : 2 ≤ v
      · obtain ⟨n, rfl⟩ := Int.eq_ofNat_of_zero_le (show 0 ≤ v by omega)
        simp only [dif_pos le] at h
        cases h
        exact .inr ⟨n, by omega, rfl, rfl⟩
      · simp only [dif_neg le] at h
        unfold refuse at h
        split at h <;> cases h
    · unfold refuse at h
      split at h <;> cases h
  · rintro (⟨rfl, rfl⟩ | ⟨n, two_le, rfl, rfl⟩)
    · rfl
    · exact checkWidth_int two_le

def namesOf : Option Datum → Except Failure Datum
  | none | some .null => .ok (.list (defaultNames.map Datum.text))
  | some d => (readNames d).map fun names => .list (names.map Datum.text)

def bitsOf : Option Datum → Except Failure Datum
  | none => .ok (.int 32)
  | some d => readBits d

def policyOf : Option Datum → Except Failure Datum
  | none | some .null => .ok (.policy .skip)
  | some d => (readPolicy d).map Datum.policy

def commentsOf : Option Datum → Bool
  | none | some .null => true
  | some d => d.isTrue

theorem ofFields_eq {fields : List (String × Datum)} (known : ∀ field ∈ fields, field.1 ∈ keys) :
    Draft.ofFields fields = do
      let names ← namesOf (fields.lookup "registers")
      let bits ← bitsOf (fields.lookup "word_bits")
      let policy ← policyOf (fields.lookup "on_error")
      return { names, bits, policy, comments := commentsOf (fields.lookup "allow_comments") } := by
  have unknown : (fields.map Prod.fst).filter (· ∉ keys) = [] := by
    simpa [List.filter_eq_nil_iff] using known
  simp only [Draft.ofFields, unknown]
  generalize fields.lookup "registers" = names
  generalize fields.lookup "word_bits" = bits
  generalize fields.lookup "on_error" = policy
  rcases names with _ | _ | _ <;> rcases bits with _ | _ <;> rcases policy with _ | _ | _ <;> rfl

theorem ofFields_of_unknown {fields : List (String × Datum)}
    (unknown : ¬∀ field ∈ fields, field.1 ∈ keys) :
    ∃ names, Draft.ofFields fields = .error (.rejected (.unknownKeys names)) := by
  cases found : (fields.map Prod.fst).filter (· ∉ keys) with
  | nil => exact absurd (by simpa [List.filter_eq_nil_iff] using found) unknown
  | cons first rest =>
    simp only [Draft.ofFields, found]
    exact ⟨_, rfl⟩

theorem known_of_ofFields {fields : List (String × Datum)} {draft : Draft}
    (h : Draft.ofFields fields = .ok draft) : ∀ field ∈ fields, field.1 ∈ keys := by
  by_contra unknown
  obtain ⟨names, rejected⟩ := ofFields_of_unknown unknown
  rw [rejected] at h
  cases h

theorem namesOf_of_ne_null {d : Datum} (h : d ≠ .null) :
    namesOf (some d) = (readNames d).map fun names => .list (names.map Datum.text) := by
  cases d with
  | null => exact absurd rfl h
  | _ => rfl

theorem policyOf_of_ne_null {d : Datum} (h : d ≠ .null) :
    policyOf (some d) = (readPolicy d).map Datum.policy := by
  cases d with
  | null => exact absurd rfl h
  | _ => rfl

theorem namesOf_eq_ok {field : Option Datum} {names : Datum} (read : namesOf field = .ok names) :
    ∃ texts : List String, texts ≠ [] ∧ names = .list (texts.map Datum.text) := by
  unfold namesOf at read
  split at read
  · exact ⟨_, by decide, (Except.ok.inj read).symm⟩
  · exact ⟨_, by decide, (Except.ok.inj read).symm⟩
  next d _ =>
    cases shown : readNames d with
    | error e =>
      rw [shown] at read
      cases read
    | ok texts =>
      rw [shown] at read
      exact ⟨texts, ne_nil_of_readNames shown, (Except.ok.inj read).symm⟩

theorem policyOf_eq_ok {field : Option Datum} {chosen : Datum} (read : policyOf field = .ok chosen) :
    ∃ policy, chosen = .policy policy := by
  unfold policyOf at read
  split at read
  · exact ⟨.skip, (Except.ok.inj read).symm⟩
  · exact ⟨.skip, (Except.ok.inj read).symm⟩
  next d _ =>
    cases found : readPolicy d with
    | error e =>
      rw [found] at read
      cases read
    | ok policy =>
      rw [found] at read
      exact ⟨policy, (Except.ok.inj read).symm⟩

end Draft

section
variable {fields : List (String × Datum)} {c : Config} {d : Datum}

theorem readNames_of_ofFields (h : ofFields fields = .ok c)
    (given : fields.lookup "registers" = some d) (nonnull : d ≠ .null) :
    readNames d = .ok c.names := by
  obtain ⟨draft, drafted, accepted⟩ := bind_eq_ok_iff.mp h
  have elements := (Draft.accept_eq_ok_iff.mp accepted).1
  rw [Draft.ofFields_eq (Draft.known_of_ofFields drafted), given, Draft.namesOf_of_ne_null nonnull]
    at drafted
  obtain ⟨names, read, drafted⟩ := bind_eq_ok_iff.mp drafted
  obtain ⟨bits, _, drafted⟩ := bind_eq_ok_iff.mp drafted
  obtain ⟨policy, _, drafted⟩ := bind_eq_ok_iff.mp drafted
  cases drafted
  cases named : readNames d with
  | error e =>
    rw [named] at read
    cases read
  | ok names =>
    rw [named] at read
    cases read
    have texts : names.map Datum.text = c.names.map Datum.text := Option.some.inj elements
    rw [(List.map_inj_right fun _ _ => Datum.text.inj).mp texts]

theorem readBits_of_ofFields (h : ofFields fields = .ok c)
    (given : fields.lookup "word_bits" = some d) :
    readBits d = .ok (c.width.count?.elim .null fun n => .int n) := by
  obtain ⟨draft, drafted, accepted⟩ := bind_eq_ok_iff.mp h
  have checked := (Draft.accept_eq_ok_iff.mp accepted).2.1
  rw [Draft.ofFields_eq (Draft.known_of_ofFields drafted), given] at drafted
  obtain ⟨names, _, drafted⟩ := bind_eq_ok_iff.mp drafted
  obtain ⟨bits, read, drafted⟩ := bind_eq_ok_iff.mp drafted
  obtain ⟨policy, _, drafted⟩ := bind_eq_ok_iff.mp drafted
  cases drafted
  refine read.trans (congrArg Except.ok ?_)
  rcases Draft.checkWidth_eq_ok_iff.mp checked with ⟨null, width⟩ | ⟨n, two_le, int, width⟩
  · rw [width]
    exact null
  · rw [width]
    exact int

end

/-- Four texts that are read as the settings of a configuration make that configuration. -/
theorem ofFields_of_texts {fields : List (String × Datum)} {names bits policy : String} {c : Config}
    (known : ∀ field ∈ fields, field.1 ∈ Draft.keys)
    (namesGiven : fields.lookup "registers" = some (.text names))
    (bitsGiven : fields.lookup "word_bits" = some (.text bits))
    (policyGiven : fields.lookup "on_error" = some (.text policy))
    (commentsGiven : fields.lookup "allow_comments" = some (.bool c.comments))
    (namesRead : readNames (.text names) = .ok c.names)
    (bitsRead : readBits (.text bits) = .ok (c.width.count?.elim .null fun n => .int n))
    (policyRead : readPolicy (.text policy) = .ok c.policy) : ofFields fields = .ok c := by
  have drafted : Draft.ofFields fields = .ok {
      names := .list (c.names.map Datum.text)
      bits := c.width.count?.elim .null fun n => .int n
      policy := .policy c.policy
      comments := c.comments } := by
    rw [Draft.ofFields_eq known, namesGiven, bitsGiven, policyGiven, commentsGiven,
      Draft.namesOf_of_ne_null Datum.noConfusion, namesRead]
    simp only [Draft.bitsOf, bitsRead, Draft.policyOf, policyRead]
    rfl
  refine bind_eq_ok_iff.mpr ⟨_, drafted, Draft.accept_eq_ok_iff.mpr ⟨rfl, ?_, rfl, rfl⟩⟩
  refine Draft.checkWidth_eq_ok_iff.mpr ?_
  cases c.width with
  | unbounded => exact .inl ⟨rfl, rfl⟩
  | bits n two_le => exact .inr ⟨n, two_le, rfl, rfl⟩

end Config
end RegisterMachine
