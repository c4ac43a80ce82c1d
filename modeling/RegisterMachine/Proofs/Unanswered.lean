import RegisterMachine.Proofs.Refusal
import RegisterMachine.Proofs.Width

/-! Configurations that cannot even be rejected. Every value can stand in a field, and most that is
wrong with one is told with a reason; the ways for a check to come to nothing instead are few, and
here are all of them: a register list that is no list, an infinite width, and integers that are too
long to be shown where they would have to be. -/
namespace RegisterMachine

namespace Datum

/-- A datum with an integer in it, at any depth, that is too long to be written. -/
inductive Overlong : Datum → Prop
  | int {v : Int} (long : ¬Numeral.Fits v) : Overlong (.int v)
  | item {items : List Datum} {d : Datum} (mem : d ∈ items) (long : d.Overlong) :
      Overlong (.list items)
  | field {fields : List (String × Datum)} {key : String} {d : Datum} (mem : (key, d) ∈ fields)
      (long : d.Overlong) : Overlong (.object fields)

theorem overlong_int_iff {v : Int} : (int v).Overlong ↔ ¬Numeral.Fits v :=
  ⟨fun | .int long => long, .int⟩

theorem overlong_list_iff {items : List Datum} :
    (list items).Overlong ↔ ∃ d ∈ items, d.Overlong :=
  ⟨fun | .item mem long => ⟨_, mem, long⟩, fun ⟨_, mem, long⟩ => .item mem long⟩

theorem overlong_object_iff {fields : List (String × Datum)} :
    (object fields).Overlong ↔ ∃ field ∈ fields, field.2.Overlong :=
  ⟨fun | .field mem long => ⟨_, mem, long⟩, fun ⟨_, mem, long⟩ => .field mem long⟩

mutual

theorem written?_eq_none_iff : (d : Datum) → (d.written? = none ↔ d.Overlong)
  | .null => iff_of_false nofun nofun
  | .bool true => iff_of_false nofun nofun
  | .bool false => iff_of_false nofun nofun
  | .int v => by
    rw [overlong_int_iff, ← Numeral.write?_isSome, written?, Option.not_isSome_iff_eq_none]
  | .float x => iff_of_false nofun nofun
  | .text s => iff_of_false nofun nofun
  | .list items => by
    rw [written?, Option.map_eq_none_iff, writtenItems?_eq_none_iff items, overlong_list_iff]
  | .object fields => by
    rw [written?, Option.map_eq_none_iff, writtenFields?_eq_none_iff fields, overlong_object_iff]
  | .policy .skip => iff_of_false nofun nofun
  | .policy .abort => iff_of_false nofun nofun

theorem writtenItems?_eq_none_iff :
    (items : List Datum) → (writtenItems? items = none ↔ ∃ d ∈ items, d.Overlong)
  | [] => by simp [writtenItems?]
  | d :: rest => by
    simp only [List.mem_cons, exists_eq_or_imp]
    rw [writtenItems?, ← written?_eq_none_iff d, ← writtenItems?_eq_none_iff rest]
    cases d.written? <;> cases writtenItems? rest <;> simp

theorem writtenFields?_eq_none_iff : (fields : List (String × Datum)) →
    (writtenFields? fields = none ↔ ∃ field ∈ fields, field.2.Overlong)
  | [] => by simp [writtenFields?]
  | (key, d) :: rest => by
    simp only [List.mem_cons, exists_eq_or_imp]
    rw [writtenFields?, ← written?_eq_none_iff d, ← writtenFields?_eq_none_iff rest]
    cases d.written? <;> cases writtenFields? rest <;> simp

end

theorem shown?_eq_none_iff (d : Datum) : d.shown? = none ↔ d.Overlong := by
  rw [← written?_eq_none_iff]
  cases d with
  | text s => exact iff_of_false nofun nofun
  | policy p => cases p <;> exact iff_of_false nofun nofun
  | _ => rfl

end Datum

namespace Binary64

theorem natAbs_lt_of_truncate? {negative : Bool} {significand : Nat} {exponent v : Int} {a b : Nat}
    (h : (finite negative significand exponent).truncate? = some v)
    (narrow : significand < Width.size a) (low : exponent ≤ b) :
    v.natAbs < Width.size a * Width.size b := by
  have magnitude : v.natAbs =
      if 0 ≤ exponent then significand <<< exponent.toNat else significand >>> (-exponent).toNat := by
    cases h
    cases negative
    · exact Int.natAbs_natCast _
    · exact (Int.natAbs_neg _).trans (Int.natAbs_natCast _)
  rw [magnitude]
  split
  next whole =>
    calc significand <<< exponent.toNat
      _ = significand * Width.size exponent.toNat := Nat.shiftLeft_eq _ _
      _ < Width.size a * Width.size exponent.toNat :=
        Nat.mul_lt_mul_of_pos_right narrow (Width.size_pos _)
      _ ≤ Width.size a * Width.size b := Nat.mul_le_mul_left _ (Width.size_le_size (by omega))
  next =>
    calc significand >>> (-exponent).toNat
      _ ≤ significand := Nat.shiftRight_le _ _
      _ < Width.size a := narrow
      _ ≤ Width.size a * Width.size b := Nat.le_mul_of_pos_right _ (Width.size_pos _)

theorem fits_of_truncate? {bits : UInt64} {v : Int} (h : (ofBits bits).truncate? = some v) :
    Numeral.Fits v := by
  have large : Width.size 53 * Width.size 971 ≤ Numeral.limit := by decide +kernel
  have leading : Width.size 53 = 2 * leadingBit := by decide +kernel
  have fraction : bits.toNat % leadingBit < leadingBit := Nat.mod_lt _ (by decide)
  have biased : bits.toNat >>> 52 % 2048 < 2048 := Nat.mod_lt _ (by decide)
  refine Nat.lt_of_lt_of_le ?_ large
  unfold ofBits at h
  simp only at h
  split at h
  · split at h <;> cases h
  next finite =>
    split at h
    · exact natAbs_lt_of_truncate? h (by omega) (by decide)
    · refine natAbs_lt_of_truncate? h (by omega) ?_
      unfold leastExponent
      omega

end Binary64

namespace Config

/-- Something goes wrong and there is no reason to give. -/
def Unanswered {α : Type} (x : Except Failure α) (failure : Failure) : Prop :=
  x = .error failure ∧ ∀ reason, failure ≠ .rejected reason

theorem reasoned_iff {α : Type} {x : Except Failure α} :
    Reasoned x ↔ ∀ failure, ¬Unanswered x failure := by
  constructor
  · rintro reasoned failure ⟨failed, unanswered⟩
    obtain ⟨reason, rejected⟩ := reasoned failure failed
    exact unanswered reason rejected
  · intro answered failure failed
    by_contra none
    exact answered failure ⟨failed, fun reason rejected => none ⟨reason, rejected⟩⟩

section
variable {α β : Type} {failure : Failure}

theorem not_unanswered_ok (a : α) : ¬Unanswered (.ok a) failure := fun h => nomatch h.1

theorem not_unanswered_rejected (reason : Rejection) :
    ¬Unanswered (.error (.rejected reason) : Except Failure α) failure := by
  rintro ⟨⟨⟩, unanswered⟩
  exact unanswered reason rfl

theorem unanswered_error_iff {e : Failure} (h : ∀ reason, e ≠ .rejected reason) :
    Unanswered (.error e : Except Failure α) failure ↔ failure = e := by
  constructor
  · rintro ⟨⟨⟩, -⟩
    rfl
  · rintro rfl
    exact ⟨rfl, h⟩

theorem unanswered_refuse_iff {d : Datum} {reason : String → Rejection} :
    Unanswered (.error (refuse d reason) : Except Failure α) failure ↔
      d.Overlong ∧ failure = .overlong := by
  rw [← Datum.written?_eq_none_iff, refuse]
  cases d.written? with
  | none =>
    have bare : Unanswered (.error .overlong : Except Failure α) failure ↔ failure = .overlong :=
      unanswered_error_iff fun _ => Failure.noConfusion
    simpa using bare
  | some written =>
    refine iff_of_false (not_unanswered_rejected _) ?_
    rintro ⟨⟨⟩, -⟩

theorem unanswered_bind_iff {x : Except Failure α} {f : α → Except Failure β} :
    Unanswered (x >>= f) failure ↔
      Unanswered x failure ∨ ∃ a, x = .ok a ∧ Unanswered (f a) failure := by
  cases x with
  | error e => simp [Unanswered, bind, Except.bind]
  | ok a => simp [Unanswered, bind, Except.bind]

theorem unanswered_map_iff {x : Except Failure α} {f : α → β} :
    Unanswered (x.map f) failure ↔ Unanswered x failure := by
  cases x <;> simp [Unanswered, Except.map]

theorem unanswered_mapM_iff {e : Failure} {f : α → Except Failure β}
    (h : ∀ reason, e ≠ .rejected reason) (only : ∀ a e', f a = .error e' → e' = e)
    {as : List α} :
    Unanswered (as.mapM f) failure ↔ (∃ a ∈ as, f a = .error e) ∧ failure = e := by
  induction as with
  | nil => exact iff_of_false (not_unanswered_ok _) (by simp)
  | cons a as ih =>
    rw [List.mapM_cons, unanswered_bind_iff]
    cases first : f a with
    | error e' =>
      obtain rfl := only a e' first
      simp [unanswered_error_iff h, first]
    | ok b =>
      have rest : Unanswered (do return b :: (← as.mapM f)) failure ↔
          Unanswered (as.mapM f) failure := by
        rw [unanswered_bind_iff]
        exact or_iff_left fun ⟨_, _, unanswered⟩ => not_unanswered_ok _ unanswered
      constructor
      · rintro (unanswered | ⟨_, ⟨⟩, unanswered⟩)
        · exact absurd unanswered (not_unanswered_ok _)
        · obtain ⟨⟨a', mem, failed⟩, same⟩ := ih.mp (rest.mp unanswered)
          exact ⟨⟨a', .tail _ mem, failed⟩, same⟩
      · rintro ⟨⟨a', mem, failed⟩, same⟩
        rcases List.mem_cons.mp mem with rfl | mem
        · rw [first] at failed
          cases failed
        · exact .inr ⟨b, rfl, rest.mpr (ih.mpr ⟨⟨a', mem, failed⟩, same⟩)⟩

end

section
variable {d : Datum} {failure : Failure}

theorem showPiece_eq_error_iff {piece : Datum} {e : Failure} :
    showPiece piece = .error e ↔ piece.Overlong ∧ e = .overlong := by
  rw [← Datum.shown?_eq_none_iff, showPiece]
  cases piece.shown? <;> simp [eq_comm]

theorem unanswered_gather (shown : List String) : ¬Unanswered (gather shown) failure := by
  unfold gather
  split
  · exact not_unanswered_rejected _
  · exact not_unanswered_ok _

theorem unanswered_readNames_of_pieces {ps : List Datum} (h : pieces d = .ok ps) :
    Unanswered (readNames d) failure ↔ (∃ piece ∈ ps, piece.Overlong) ∧ failure = .overlong := by
  have only (piece : Datum) (e : Failure) (failed : showPiece piece = .error e) : e = .overlong :=
    (showPiece_eq_error_iff.mp failed).2
  rw [readNames_eq, h]
  simp only [unanswered_bind_iff, not_unanswered_ok, false_or, Except.ok.injEq, exists_eq_left',
    unanswered_mapM_iff (fun _ => Failure.noConfusion) only, unanswered_gather,
    showPiece_eq_error_iff, and_true, and_false, exists_false, or_false]

theorem unanswered_readNames_iff : Unanswered (readNames d) failure ↔
    (d.elements? = none ∧ failure = .notIterable d.typeName) ∨
      ∃ items, d = .list items ∧ (∃ item ∈ items, item.Overlong) ∧ failure = .overlong := by
  cases d with
  | text s =>
    refine iff_of_false (reasoned_iff.mp (reasoned_readNames (.text s)) failure) ?_
    rintro (⟨⟨⟩, -⟩ | ⟨_, ⟨⟩, -⟩)
  | list items =>
    rw [unanswered_readNames_of_pieces rfl]
    simp [Datum.elements?]
  | object fields =>
    rw [unanswered_readNames_of_pieces rfl]
    refine iff_of_false ?_ ?_
    · rintro ⟨⟨piece, mem, long⟩, -⟩
      obtain ⟨field, -, rfl⟩ := List.mem_map.mp mem
      cases long
    · rintro (⟨⟨⟩, -⟩ | ⟨_, ⟨⟩, -⟩)
  | _ =>
    refine (unanswered_error_iff fun _ => Failure.noConfusion).trans ?_
    simp [Datum.elements?]

theorem unanswered_readBits_iff : Unanswered (readBits d) failure ↔
    ((∃ negative, d = .float (.infinity negative)) ∧ failure = .infinite) ∨
      ((∀ v, d ≠ .int v) ∧ d.Overlong ∧ failure = .overlong) := by
  unfold readBits
  by_cases unbounded : asksUnbounded d = true
  · rw [if_pos unbounded]
    refine iff_of_false (not_unanswered_ok _) ?_
    rintro (⟨⟨negative, rfl⟩, -⟩ | ⟨other, long, -⟩)
    · cases unbounded
    · cases long with
      | int => exact other _ rfl
      | item => cases unbounded
      | field => cases unbounded
  · rw [if_neg unbounded]
    cases d with
    | null => exact absurd rfl unbounded
    | bool b => exact iff_of_false (not_unanswered_ok _) (by rintro (⟨⟨_, ⟨⟩⟩, -⟩ | ⟨-, ⟨⟩, -⟩))
    | int v => exact iff_of_false (not_unanswered_ok _) (by simp)
    | float x =>
      cases x with
      | nan => exact unanswered_refuse_iff.trans (by simp)
      | infinity negative =>
        have short : ¬(Datum.float (.infinity negative)).Overlong := nofun
        exact (unanswered_error_iff fun _ => Failure.noConfusion).trans (by simp [short])
      | finite negative significand exponent =>
        exact iff_of_false (not_unanswered_ok _) (by rintro (⟨⟨_, ⟨⟩⟩, -⟩ | ⟨-, ⟨⟩, -⟩))
    | text s =>
      refine iff_of_false (reasoned_iff.mp ?_ failure) (by rintro (⟨⟨_, ⟨⟩⟩, -⟩ | ⟨-, ⟨⟩, -⟩))
      simp only
      split
      · exact .ok _
      · exact .refused rfl _
    | list items => exact unanswered_refuse_iff.trans (by simp)
    | object fields => exact unanswered_refuse_iff.trans (by simp)
    | policy p => exact unanswered_refuse_iff.trans (by simp)

theorem unanswered_readPolicy_iff :
    Unanswered (readPolicy d) failure ↔ d.Overlong ∧ failure = .overlong := by
  unfold readPolicy
  split
  next policy => exact iff_of_false (not_unanswered_ok _) (fun ⟨long, _⟩ => nomatch long)
  next =>
    split
    next hidden =>
      rw [unanswered_error_iff fun _ => Failure.noConfusion, ← Datum.shown?_eq_none_iff]
      simp [hidden]
    next s shown =>
      split
      · refine iff_of_false (not_unanswered_ok _) ?_
        rintro ⟨long, -⟩
        rw [← Datum.shown?_eq_none_iff, shown] at long
        cases long
      · exact unanswered_refuse_iff

end

namespace Draft
variable {d : Datum} {failure : Failure}

theorem unanswered_checkWidth_iff : Unanswered (checkWidth d) failure ↔
    (∀ v, d = .int v → v < 2) ∧ d.Overlong ∧ failure = .overlong := by
  unfold checkWidth
  split
  · exact iff_of_false (not_unanswered_ok _) (fun ⟨_, long, _⟩ => nomatch long)
  next v =>
    unfold Width.ofBits?
    by_cases many : 2 ≤ v
    · rw [dif_pos many]
      refine iff_of_false (not_unanswered_ok _) ?_
      rintro ⟨few, -⟩
      have := few v rfl
      omega
    · rw [dif_neg many]
      have few : ∀ u, Datum.int v = .int u → u < 2 := by
        rintro _ ⟨⟩
        omega
      exact unanswered_refuse_iff.trans (and_iff_right few).symm
  next _ other =>
    exact unanswered_refuse_iff.trans (and_iff_right fun v same => (other v same).elim).symm

/-- Names are told apart with reasons, so only the width can be left without one. -/
theorem unanswered_accept_iff {draft : Draft} {names : List String} {policy : Policy}
    (named : draft.names = .list (names.map Datum.text)) (nonempty : names ≠ [])
    (chosen : draft.policy = .policy policy) : Unanswered draft.accept failure ↔
      (∀ name ∈ names, isRegisterName name = true) ∧ names.Nodup ∧
        Unanswered (checkWidth draft.bits) failure := by
  obtain ⟨first, others, rfl⟩ := List.exists_cons_of_ne_nil nonempty
  have elements : draft.names.elements? = some (.text first :: others.map Datum.text) := by
    rw [named]
    rfl
  have checks : Reasoned ((others.map Datum.text).mapM checkName) := .mapM (by
    simpa using fun s _ => reasoned_checkName s)
  constructor
  · intro unanswered
    unfold accept at unanswered
    simp only [elements] at unanswered
    rcases unanswered_bind_iff.mp unanswered with bad | ⟨head, read, unanswered⟩
    · exact absurd bad (reasoned_iff.mp (reasoned_checkName first) failure)
    rcases unanswered_bind_iff.mp unanswered with bad | ⟨tail, reads, unanswered⟩
    · exact absurd bad (reasoned_iff.mp checks failure)
    have same : first :: others = (head :: tail).map Subtype.val := by
      have texts := eq_texts_of_mapM_checkName reads
      have tails : others = tail.map Subtype.val :=
        (List.map_inj_right fun _ _ => Datum.text.inj).mp (by simpa using texts)
      rw [List.map_cons, Datum.text.inj (eq_text_of_checkName read), tails]
    rw [same]
    split at unanswered
    next distinct =>
      refine ⟨fun name mem => ?_, distinct, ?_⟩
      · obtain ⟨valid, -, rfl⟩ := List.mem_map.mp mem
        exact valid.property
      · rcases unanswered_bind_iff.mp unanswered with wide | ⟨width, -, unanswered⟩
        · exact wide
        · rw [chosen] at unanswered
          exact absurd unanswered (not_unanswered_ok _)
    · exact absurd unanswered (not_unanswered_rejected _)
  · rintro ⟨valid, distinct, failed, unanswered⟩
    obtain ⟨tail, rfl⟩ : ∃ tail : List { s // isRegisterName s = true },
        others = tail.map Subtype.val :=
      ⟨others.attachWith _ fun name mem => valid name (.tail _ mem), by simp⟩
    have listed : draft.names.elements? =
        some (.text first :: tail.map fun name => .text name.val) := by
      rw [elements, List.map_map]
      rfl
    refine ⟨?_, unanswered⟩
    simp only [accept, listed, checkName_text (valid first (.head _)), mapM_checkName, failed, bind,
      Except.bind]
    exact dif_pos distinct

section
variable {field : Option Datum}

theorem unanswered_namesOf_iff : Unanswered (namesOf field) failure ↔
    (∃ d, field = some d ∧ d ≠ .null ∧ d.elements? = none ∧ failure = .notIterable d.typeName) ∨
      ∃ items, field = some (.list items) ∧ (∃ item ∈ items, item.Overlong) ∧
        failure = .overlong := by
  cases field with
  | none => exact iff_of_false (not_unanswered_ok _) (by simp)
  | some d =>
    by_cases null : d = .null
    · rw [null]
      exact iff_of_false (not_unanswered_ok _) (by simp)
    · rw [namesOf_of_ne_null null, unanswered_map_iff, unanswered_readNames_iff]
      simp [null]

theorem unanswered_bitsOf_iff : Unanswered (bitsOf field) failure ↔
    ((∃ negative, field = some (.float (.infinity negative))) ∧ failure = .infinite) ∨
      ∃ d, field = some d ∧ (∀ v, d ≠ .int v) ∧ d.Overlong ∧ failure = .overlong := by
  cases field with
  | none => exact iff_of_false (not_unanswered_ok _) (by simp)
  | some d =>
    rw [bitsOf, unanswered_readBits_iff]
    simp

theorem unanswered_policyOf_iff : Unanswered (policyOf field) failure ↔
    ∃ d, field = some d ∧ d.Overlong ∧ failure = .overlong := by
  cases field with
  | none => exact iff_of_false (not_unanswered_ok _) (by simp)
  | some d =>
    by_cases null : d = .null
    · rw [null]
      refine iff_of_false (not_unanswered_ok _) ?_
      rintro ⟨_, ⟨⟩, ⟨⟩, -⟩
    · rw [policyOf_of_ne_null null, unanswered_map_iff, unanswered_readPolicy_iff]
      simp

theorem int_of_bitsOf {bits : Datum}
    (doubles : ∀ x, field = some (.float x) → ∃ b, x = .ofBits b)
    (read : bitsOf field = .ok bits) (long : bits.Overlong) :
    ∃ v, bits = .int v ∧ field = some (.int v) := by
  cases field with
  | none =>
    cases read
    exact absurd (by decide +kernel) (Datum.overlong_int_iff.mp long)
  | some d =>
    unfold bitsOf readBits at read
    simp only at read
    split at read
    · cases read
      cases long
    · split at read
      · cases read
        exact absurd (by decide +kernel) (Datum.overlong_int_iff.mp long)
      · cases read
        exact ⟨_, rfl, rfl⟩
      · cases read
      next x _ _ =>
        split at read
        next whole =>
          cases read
          obtain ⟨b, rfl⟩ := doubles x rfl
          exact absurd (Binary64.fits_of_truncate? whole) (Datum.overlong_int_iff.mp long)
        · cases read
      · split at read
        next spelled =>
          cases read
          exact absurd (Numeral.fits_of_read? spelled) (Datum.overlong_int_iff.mp long)
        · cases read
      · cases read

theorem bitsOf_int {v : Int} (long : ¬Numeral.Fits v) :
    bitsOf (some (.int v)) = .ok (.int v) := by
  have nonzero : v ≠ 0 := by
    rintro rfl
    exact long (by decide +kernel)
  have bounded : ¬asksUnbounded (.int v) = true := by simpa [asksUnbounded] using nonzero
  exact if_neg bounded

end

end Draft

/-- The ways for fields with known keys to come to nothing. -/
inductive Escapes (fields : List (String × Datum)) : Failure → Prop
  /-- The registers are a single value that no names are in. -/
  | rigid {d : Datum} (given : fields.lookup "registers" = some d) (nonnull : d ≠ .null)
      (rigid : d.elements? = none) : Escapes fields (.notIterable d.typeName)
  /-- Every register name is shown to be read. -/
  | names {items : List Datum} {d : Datum} (given : fields.lookup "registers" = some (.list items))
      (mem : d ∈ items) (long : d.Overlong) : Escapes fields .overlong
  | infinite {names : Datum} {negative : Bool}
      (named : Draft.namesOf (fields.lookup "registers") = .ok names)
      (given : fields.lookup "word_bits" = some (.float (.infinity negative))) :
      Escapes fields .infinite
  /-- A width that is no number is shown when it is refused. -/
  | bits {names d : Datum} (named : Draft.namesOf (fields.lookup "registers") = .ok names)
      (given : fields.lookup "word_bits" = some d) (other : ∀ v, d ≠ .int v) (long : d.Overlong) :
      Escapes fields .overlong
  | policy {names bits d : Datum} (named : Draft.namesOf (fields.lookup "registers") = .ok names)
      (counted : Draft.bitsOf (fields.lookup "word_bits") = .ok bits)
      (given : fields.lookup "on_error" = some d) (long : d.Overlong) : Escapes fields .overlong
  /-- A width that is too small is shown when it is refused, once all names are accepted. -/
  | width {names : List String} {v : Int} {policy : Datum}
      (named : Draft.namesOf (fields.lookup "registers") = .ok (.list (names.map Datum.text)))
      (valid : ∀ name ∈ names, isRegisterName name = true) (distinct : names.Nodup)
      (given : fields.lookup "word_bits" = some (.int v))
      (chosen : Draft.policyOf (fields.lookup "on_error") = .ok policy) (few : v < 2)
      (long : ¬Numeral.Fits v) : Escapes fields .overlong

section
variable {fields : List (String × Datum)} {failure : Failure}

theorem unanswered_ofFields_iff (known : ∀ field ∈ fields, field.1 ∈ Draft.keys)
    (doubles : ∀ x, fields.lookup "word_bits" = some (.float x) → ∃ bits, x = .ofBits bits) :
    Unanswered (ofFields fields) failure ↔ Escapes fields failure := by
  rw [ofFields, Draft.ofFields_eq known]
  simp only [bind_assoc, pure_bind, unanswered_bind_iff]
  constructor
  · rintro (names | ⟨names, named, bits | ⟨bits, counted, policy | ⟨policy, chosen, accepted⟩⟩⟩)
    · rcases Draft.unanswered_namesOf_iff.mp names with
        ⟨d, given, nonnull, rigid, rfl⟩ | ⟨items, given, ⟨d, mem, long⟩, rfl⟩
      · exact .rigid given nonnull rigid
      · exact .names given mem long
    · rcases Draft.unanswered_bitsOf_iff.mp bits with
        ⟨⟨negative, given⟩, rfl⟩ | ⟨d, given, other, long, rfl⟩
      · exact .infinite named given
      · exact .bits named given other long
    · obtain ⟨d, given, long, rfl⟩ := Draft.unanswered_policyOf_iff.mp policy
      exact .policy named counted given long
    · obtain ⟨texts, nonempty, rfl⟩ := Draft.namesOf_eq_ok named
      obtain ⟨p, rfl⟩ := Draft.policyOf_eq_ok chosen
      obtain ⟨valid, distinct, width⟩ :=
        (Draft.unanswered_accept_iff rfl nonempty rfl).mp accepted
      obtain ⟨few, long, rfl⟩ := Draft.unanswered_checkWidth_iff.mp width
      obtain ⟨v, rfl, given⟩ := Draft.int_of_bitsOf doubles counted long
      exact .width named valid distinct given chosen (few v rfl) (Datum.overlong_int_iff.mp long)
  · intro escapes
    cases escapes with
    | rigid given nonnull rigid =>
      exact .inl (Draft.unanswered_namesOf_iff.mpr (.inl ⟨_, given, nonnull, rigid, rfl⟩))
    | names given mem long =>
      exact .inl (Draft.unanswered_namesOf_iff.mpr (.inr ⟨_, given, ⟨_, mem, long⟩, rfl⟩))
    | infinite named given =>
      exact .inr ⟨_, named, .inl (Draft.unanswered_bitsOf_iff.mpr (.inl ⟨⟨_, given⟩, rfl⟩))⟩
    | bits named given other long =>
      exact .inr ⟨_, named,
        .inl (Draft.unanswered_bitsOf_iff.mpr (.inr ⟨_, given, other, long, rfl⟩))⟩
    | policy named counted given long =>
      exact .inr ⟨_, named, .inr ⟨_, counted,
        .inl (Draft.unanswered_policyOf_iff.mpr ⟨_, given, long, rfl⟩)⟩⟩
    | @width names v policy named valid distinct given chosen few long =>
      have counted : Draft.bitsOf (fields.lookup "word_bits") = .ok (.int v) := by
        rw [given, Draft.bitsOf_int long]
      have nonempty : names ≠ [] := by
        rintro rfl
        obtain ⟨texts, nonempty, same⟩ := Draft.namesOf_eq_ok named
        exact nonempty (List.map_eq_nil_iff.mp (Datum.list.inj same).symm)
      have width : Unanswered (Draft.checkWidth (.int v)) .overlong := by
        refine Draft.unanswered_checkWidth_iff.mpr ⟨?_, .int long, rfl⟩
        rintro _ ⟨⟩
        exact few
      obtain ⟨p, rfl⟩ := Draft.policyOf_eq_ok chosen
      exact .inr ⟨_, named, .inr ⟨_, counted, .inr ⟨_, chosen,
        (Draft.unanswered_accept_iff rfl nonempty rfl).mpr ⟨valid, distinct, width⟩⟩⟩⟩

theorem exists_mem_of_lookup {key : String} {d : Datum} (h : fields.lookup key = some d) :
    ∃ field ∈ fields, field.2 = d := by
  obtain ⟨before, after, rfl, -⟩ := List.lookup_eq_some_iff.mp h
  exact ⟨(key, d), by simp, rfl⟩

theorem not_escapes
    (registers : ∀ d, fields.lookup "registers" = some d → d = .null ∨ d.elements? ≠ none)
    (finite : ∀ negative, fields.lookup "word_bits" ≠ some (.float (.infinity negative)))
    (short : ∀ field ∈ fields, ¬field.2.Overlong) : ¬Escapes fields failure := by
  have given {key : String} {d : Datum} (h : fields.lookup key = some d) : ¬d.Overlong := by
    obtain ⟨field, mem, rfl⟩ := exists_mem_of_lookup h
    exact short field mem
  intro escapes
  cases escapes with
  | rigid listed nonnull rigid => exact (registers _ listed).elim nonnull fun gone => gone rigid
  | names listed mem long => exact given listed (.item mem long)
  | infinite named wide => exact finite _ wide
  | bits named wide other long => exact given wide long
  | policy named counted chosen long => exact given chosen long
  | width named valid distinct wide chosen few long => exact given wide (.int long)

end

/-- Fields that are not rejected with a reason come to nothing in just so many ways, and they do not
if the registers can be gone through, the width is not infinite and no integer is too long. -/
theorem rejected_unless_escapes (fields : List (String × Datum))
    (doubles : ∀ x, fields.lookup "word_bits" = some (.float x) → ∃ bits, x = .ofBits bits) :
    (∀ failure, (∀ reason, failure ≠ .rejected reason) →
      (ofFields fields = .error failure ↔
        (∀ field ∈ fields, field.1 ∈ Draft.keys) ∧ Escapes fields failure)) ∧
    ((∀ d, fields.lookup "registers" = some d → d = .null ∨ d.elements? ≠ none) →
      (∀ negative, fields.lookup "word_bits" ≠ some (.float (.infinity negative))) →
      (∀ field ∈ fields, ¬field.2.Overlong) →
      (∃ c, ofFields fields = .ok c) ∨ ∃ reason, ofFields fields = .error (.rejected reason)) := by
  have escapes (failure : Failure) : Unanswered (ofFields fields) failure ↔
      (∀ field ∈ fields, field.1 ∈ Draft.keys) ∧ Escapes fields failure := by
    by_cases known : ∀ field ∈ fields, field.1 ∈ Draft.keys
    · rw [unanswered_ofFields_iff known doubles, and_iff_right known]
    · obtain ⟨names, rejected⟩ := Draft.ofFields_of_unknown known
      rw [ofFields, rejected]
      exact iff_of_false (not_unanswered_rejected _) fun h => known h.1
  constructor
  · intro failure unreasoned
    rw [← escapes]
    exact ⟨fun failed => ⟨failed, unreasoned⟩, fun unanswered => unanswered.1⟩
  · intro registers finite short
    have reasoned : Reasoned (ofFields fields) := reasoned_iff.mpr fun failure unanswered =>
      not_escapes registers finite short ((escapes failure).mp unanswered).2
    cases made : ofFields fields with
    | ok c => exact .inl ⟨c, rfl⟩
    | error failure =>
      obtain ⟨reason, rfl⟩ := reasoned failure made
      exact .inr ⟨reason, rfl⟩

/-- The width of one is infinite, that of the other is no number at all. -/
theorem rejected_unless_infinite :
    Escapes [("word_bits", .float (.infinity false))] .infinite ∧
    ((∃ c, ofFields [("registers", .text "A"), ("word_bits", .list [.float .nan])] = .ok c) ∨
      ∃ reason, ofFields [("registers", .text "A"), ("word_bits", .list [.float .nan])] =
        .error (.rejected reason)) := by
  obtain ⟨escapes, -⟩ := rejected_unless_escapes [("word_bits", .float (.infinity false))] (by
    rintro x ⟨⟩
    exact ⟨0x7FF0000000000000, by decide +kernel⟩)
  obtain ⟨-, rejected⟩ :=
    rejected_unless_escapes [("registers", .text "A"), ("word_bits", .list [.float .nan])] nofun
  refine ⟨((escapes .infinite fun _ => Failure.noConfusion).mp rfl).2, rejected ?_ nofun ?_⟩
  · rintro _ ⟨⟩
    exact .inr nofun
  · rw [List.forall_mem_cons, List.forall_mem_singleton]
    refine ⟨nofun, ?_⟩
    rw [Datum.overlong_list_iff]
    simpa using nofun

/-- Not all that is wrong with a configuration can be told: an infinite width, a number for a list
of registers, and a width that is negative and too long to be shown. -/
theorem unanswered_configurations :
    ofFields [("word_bits", .float (.infinity false))] = .error .infinite ∧
    ofFields [("registers", .int 5)] = .error (.notIterable "int") ∧
    ofFields [("word_bits", .int (-Numeral.limit))] = .error .overlong := by
  refine ⟨rfl, rfl, ?_⟩
  decide +kernel

end Config

end RegisterMachine
