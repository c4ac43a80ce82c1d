import RegisterMachine.Proofs.Fields

/-! Configurations written as text. Blanks around names and around the policy, pieces of the list
without a name and capital letters do not matter, so every way to write a configuration down is read
back as the configuration it was. -/
namespace RegisterMachine

namespace Text

theorem Chars.trim_padded {before cs after : Chars} (blankBefore : ∀ c ∈ before, isBlank c = true)
    (blankAfter : ∀ c ∈ after, isBlank c = true) (tight : Tight cs) :
    trim (before ++ (cs ++ after)) = cs := by
  have blankEnd : ∀ c ∈ after.reverse, isBlank c = true := by simpa using blankAfter
  rw [trim, trimStart, List.dropWhile_append_of_pos blankBefore]
  cases cs with
  | nil =>
    have nothing : after.dropWhile isBlank = [] := by
      rw [← List.append_nil after, List.dropWhile_append_of_pos blankAfter]
      rfl
    rw [List.nil_append, nothing]
    rfl
  | cons c cs =>
    have start : ((c :: cs) ++ after).dropWhile isBlank = (c :: cs) ++ after :=
      dropWhile_isBlank tight.1
    rw [start, trimEnd, List.reverse_append, List.dropWhile_append_of_pos blankEnd, ← trimEnd]
    have trimmed := trim_of_tight tight
    rwa [trim, trimStart, dropWhile_isBlank tight.1] at trimmed

def Padded (s written : String) : Prop :=
  ∃ before after : Chars, (∀ c ∈ before, isBlank c = true) ∧ (∀ c ∈ after, isBlank c = true) ∧
    written.toList = before ++ (s.toList ++ after)

theorem Padded.trim_eq {s written : String} (h : Padded s written) (tight : Chars.Tight s.toList) :
    trim written = s := by
  obtain ⟨before, after, blankBefore, blankAfter, split⟩ := h
  rw [trim, split, Chars.trim_padded blankBefore blankAfter tight, String.ofList_toList]

theorem Padded.not_mem {s written : String} (h : Padded s written) {c : Char}
    (dark : isBlank c = false) (absent : c ∉ s.toList) : c ∉ written.toList := by
  obtain ⟨before, after, blankBefore, blankAfter, split⟩ := h
  have outside {blanks : Chars} (blank : ∀ c ∈ blanks, isBlank c = true) : c ∉ blanks := by
    intro hc
    rw [blank c hc] at dark
    cases dark
  rw [split]
  simp [outside blankBefore, outside blankAfter, absent]

end Text

/-- The pieces of a list of names: each name has blanks around it, and there may be pieces without
a name anywhere. -/
inductive Lists : (names pieces : List String) → Prop
  | done : Lists [] []
  | name {name written : String} {names pieces : List String} (padded : Text.Padded name written)
      (rest : Lists names pieces) : Lists (name :: names) (written :: pieces)
  | gap {blanks : String} {names pieces : List String} (padded : Text.Padded "" blanks)
      (rest : Lists names pieces) : Lists names (blanks :: pieces)

namespace Lists
variable {names pieces : List String}

theorem filter_trim (h : Lists names pieces) (words : ∀ n ∈ names, isRegisterName n = true) :
    (pieces.map Text.trim).filter (· ≠ "") = names := by
  induction h with
  | done => rfl
  | @name name written names pieces padded rest ih =>
    obtain ⟨first, others⟩ := List.forall_mem_cons.mp words
    have word := (isRegisterName_iff name).mp first
    have nonempty : name ≠ "" := by
      rintro rfl
      exact word.1 rfl
    rw [List.map_cons, padded.trim_eq (Text.Chars.tight_of_isWord word),
      List.filter_cons_of_pos (by simpa using nonempty), ih others]
  | gap padded rest ih =>
    have nothing := padded.trim_eq ⟨by simp, by simp⟩
    rw [List.map_cons, nothing, List.filter_cons_of_neg (by simp), ih words]

theorem comma_not_mem (h : Lists names pieces) (commaless : ∀ n ∈ names, ',' ∉ n.toList) :
    ∀ piece ∈ pieces, ',' ∉ piece.toList := by
  induction h with
  | done => simp
  | name padded rest ih =>
    obtain ⟨first, others⟩ := List.forall_mem_cons.mp commaless
    exact List.forall_mem_cons.mpr ⟨padded.not_mem (by decide) first, ih others⟩
  | gap padded rest ih =>
    exact List.forall_mem_cons.mpr ⟨padded.not_mem (by decide) (by simp), ih commaless⟩

theorem pieces_ne_nil (h : Lists names pieces) (nonempty : names ≠ []) : pieces ≠ [] := by
  cases h with
  | done => exact absurd rfl nonempty
  | name | gap => simp

end Lists

namespace Config

theorem readNames_of_pieces {pieces names : List String} (nonempty : pieces ≠ [])
    (commaless : ∀ piece ∈ pieces, ',' ∉ piece.toList)
    (trimmed : (pieces.map Text.trim).filter (· ≠ "") = names) (named : names ≠ []) :
    readNames (.text (",".intercalate pieces)) = .ok names := by
  have apart : ∀ cs ∈ pieces.map String.toList, ',' ∉ cs := by
    simpa using commaless
  have texts : ((",".intercalate pieces).toList.splitOn ',').map
      (fun piece => Datum.text (String.ofList piece)) = pieces.map Datum.text := by
    rw [String.toList_intercalate, show ",".toList = [','] from rfl,
      List.splitOn_intercalate ',' apart (by simpa using nonempty), List.map_map]
    simp [Function.comp_def]
  have shown (f : Datum → Except Failure String) (each : ∀ s, f (.text s) = .ok (Text.trim s)) :
      (pieces.map Datum.text).mapM f = .ok (pieces.map Text.trim) := by
    clear nonempty commaless trimmed apart texts
    induction pieces with
    | nil => rfl
    | cons piece pieces ih =>
      rw [List.map_cons, List.mapM_cons, each, ih]
      rfl
  unfold readNames
  simp only [texts]
  refine bind_eq_ok_iff.mpr ⟨_, rfl, bind_eq_ok_iff.mpr ⟨_, shown _ fun _ => rfl, ?_⟩⟩
  rw [trimmed]
  cases names with
  | nil => exact absurd rfl named
  | cons => rfl

theorem readNames_of_lists {names pieces : List String} (h : Lists names pieces)
    (nonempty : names ≠ []) (words : ∀ n ∈ names, isRegisterName n = true)
    (commaless : ∀ n ∈ names, ',' ∉ n.toList) :
    readNames (.text (",".intercalate pieces)) = .ok names :=
  readNames_of_pieces (h.pieces_ne_nil nonempty) (h.comma_not_mem commaless) (h.filter_trim words)
    nonempty

theorem readBits_of_count {w : Width} (short : ∀ count ∈ w.count?, Numeral.Fits count) :
    readBits (.text (w.count?.elim "0" fun count => Numeral.text count)) =
      .ok (w.count?.elim .null fun count => .int count) := by
  cases w with
  | unbounded => rfl
  | bits count two_le =>
    have fits : Numeral.Fits count := short count rfl
    have zero : Numeral.text count ≠ "0" := by
      intro h
      have value := Literal.value_text count
      rw [h] at value
      have : (0 : Int) = count := value
      omega
    have empty : Numeral.text count ≠ "" := by
      intro h
      have formed := Literal.wellFormed_text count
      rw [h] at formed
      exact formed.1 rfl
    simp [Width.count?, readBits, asksUnbounded, zero, empty, Numeral.read?_text fits]

theorem foldLetter_of_ne {c : Char} (h : c ≠ '\u212A') : Policy.foldLetter c = c.toLower :=
  if_neg h

theorem toLower_of_isBlank {c : Char} (h : Text.isBlank c = true) : c.toLower = c := by
  unfold Char.toLower
  rw [dif_neg]
  rintro ⟨low, high⟩
  have low : 65 ≤ c.toNat := UInt32.le_iff_toNat_le.mp low
  have high : c.toNat ≤ 90 := UInt32.le_iff_toNat_le.mp high
  simp only [Text.isBlank, Bool.or_eq_true, Bool.and_eq_true, decide_eq_true_eq, beq_iff_eq] at h
  omega

theorem readPolicy_of_padded {p : Policy} {letters written : String}
    (lower : letters.toList.map Char.toLower = p.name.toList)
    (padded : Text.Padded letters written) : readPolicy (.text written) = .ok p := by
  have small {c : Char} (hc : c ∈ letters.toList) : c.toLower ∈ p.name.toList :=
    lower ▸ List.mem_map_of_mem hc
  have kelvin : ∀ c ∈ letters.toList, c ≠ '\u212A' := by
    rintro c hc rfl
    have := small hc
    revert this
    cases p <;> decide
  have word : Text.Chars.IsWord letters.toList := by
    refine ⟨fun nil => ?_, fun c hc => ?_⟩
    · rw [nil] at lower
      revert lower
      cases p <;> decide
    · by_contra blank
      rw [Bool.not_eq_false] at blank
      have mem := toLower_of_isBlank blank ▸ small hc
      have dark : p.name.toList.all (!Text.isBlank ·) = true := by cases p <;> rfl
      have := List.all_eq_true.mp dark c mem
      simp [blank] at this
  have read : Policy.read? written = some p := by
    have folded : letters.toList.map Policy.foldLetter = p.name.toList := by
      rw [← lower]
      exact List.map_congr_left fun c hc => foldLetter_of_ne (kelvin c hc)
    rw [Policy.read?, padded.trim_eq (Text.Chars.tight_of_isWord word), folded,
      String.ofList_toList, Policy.ofName?_name]
  simp [readPolicy, read]

theorem lookup_of_mem {fields : List (String × Datum)} (distinct : (fields.map Prod.fst).Nodup)
    {key : String} {d : Datum} (h : (key, d) ∈ fields) : fields.lookup key = some d := by
  induction fields with
  | nil => cases h
  | cons field fields ih =>
    obtain ⟨first, e⟩ := field
    obtain ⟨fresh, distinct⟩ := List.nodup_cons.mp distinct
    rcases List.mem_cons.mp h with same | later
    · cases same
      simp
    · have ne : key ≠ first := by
        rintro rfl
        exact fresh (List.mem_map.mpr ⟨_, later, rfl⟩)
      rw [List.lookup_cons, beq_eq_false_iff_ne.mpr ne, ih distinct later]

/-- How a configuration may be written as texts: its names in a list, its width as a number, nought
if it is unbounded, and the name of its policy in letters of either case. -/
structure Written (c : Config) (names bits policy : String) : Prop where
  names : ∃ pieces, Lists c.names pieces ∧ names = ",".intercalate pieces
  bits : bits = c.width.count?.elim "0" fun count => Numeral.text count
  policy : ∃ letters : String, letters.toList.map Char.toLower = c.policy.name.toList ∧
    Text.Padded letters policy

/-- What is to be said of a configuration that was made from fields. -/
structure MadeFrom (c : Config) (fields : List (String × Datum)) : Prop where
  nonempty : c.names ≠ []
  distinct : c.names.Nodup
  words : ∀ name ∈ c.names, name ≠ "" ∧ ∀ ch ∈ name.toList, Text.isBlank ch = false
  wide : ∀ count ∈ c.width.count?, 2 ≤ count
  /-- All names that the field lists, and no others. -/
  names : ∀ d, fields.lookup "registers" = some d → d ≠ .null → readNames d = .ok c.names
  width : ∀ d, fields.lookup "word_bits" = some d →
    readBits d = .ok (c.width.count?.elim .null fun count => .int count)

theorem madeFrom_of_ofFields {fields : List (String × Datum)} {c : Config}
    (h : ofFields fields = .ok c) : c.MadeFrom fields where
  nonempty := c.names_ne_nil
  distinct := c.names_nodup
  words := by
    intro name hname
    obtain ⟨nonempty, dark⟩ := (isRegisterName_iff name).mp (c.names_valid name hname)
    exact ⟨fun empty => nonempty (by rw [empty]; rfl), dark⟩
  wide := by
    intro count hcount
    cases width : c.width with
    | unbounded =>
      rw [width] at hcount
      cases hcount
    | bits n two_le =>
      rw [width] at hcount
      cases hcount
      exact two_le
  names := fun _ given nonnull => readNames_of_ofFields h given nonnull
  width := fun _ given => readBits_of_ofFields h given

/-- A configuration that is made from fields has one name at least and no name twice, names that can
stand as operands, and a width of two bits at least or none. Every configuration can be had in this
way: written as texts, in whatever order the fields are, it is read back as it was. -/
theorem written_config_is_read_back :
    (∀ (fields : List (String × Datum)) (c : Config), ofFields fields = .ok c → c.MadeFrom fields) ∧
    ∀ (c : Config) (names bits policy : String), c.Written names bits policy →
      (∀ name ∈ c.names, ',' ∉ name.toList) →
      (∀ count ∈ c.width.count?, (Nat.toDigits 10 count).length ≤ 4300) →
      ∀ fields : List (String × Datum), fields.Perm
        [("registers", .text names), ("word_bits", .text bits), ("on_error", .text policy),
          ("allow_comments", .bool c.comments)] → ofFields fields = .ok c := by
  refine ⟨fun fields c => madeFrom_of_ofFields, ?_⟩
  intro c names bits policy written commaless short fields order
  obtain ⟨⟨pieces, lists, rfl⟩, rfl, letters, lower, padded⟩ := written
  have keys : (fields.map Prod.fst).Perm Draft.keys := order.map Prod.fst
  have distinct : (fields.map Prod.fst).Nodup := keys.nodup_iff.mpr (by decide)
  have given {key : String} {d : Datum} (h : (key, d) ∈ [("registers", .text (",".intercalate pieces)),
      ("word_bits", .text (c.width.count?.elim "0" fun count => Numeral.text count)),
      ("on_error", .text policy), ("allow_comments", .bool c.comments)]) :
      fields.lookup key = some d := lookup_of_mem distinct (order.mem_iff.mpr h)
  exact ofFields_of_texts (fun field hfield => keys.mem_iff.mp (List.mem_map_of_mem hfield))
    (given (by simp)) (given (by simp)) (given (by simp)) (given (by simp))
    (readNames_of_lists lists c.names_ne_nil c.names_valid commaless)
    (readBits_of_count fun count hcount => (Numeral.fits_iff count).mpr (short count hcount))
    (readPolicy_of_padded lower padded)

def strict : Config where
  names := ["R1", "total"]
  width := .bits 16 (by decide)
  policy := .abort
  comments := false
  names_ne_nil := by simp
  names_nodup := by decide
  names_valid := by decide

theorem strict_config_is_read_back :
    let fields := [("allow_comments", .bool false), ("on_error", .text " aBORt\n"),
      ("word_bits", .text "16"), ("registers", .text "\tR1 ,, total\u3000,")]
    strict.Written "\tR1 ,, total\u3000," "16" " aBORt\n" ∧
    (∀ name ∈ strict.names, ',' ∉ name.toList) ∧
    (∀ count ∈ strict.width.count?, (Nat.toDigits 10 count).length ≤ 4300) ∧
    ofFields fields = .ok strict ∧ strict.MadeFrom fields := by
  have blank {c : Char} (h : Text.isBlank c = true) : ∀ d ∈ [c], Text.isBlank d = true :=
    List.forall_mem_singleton.mpr h
  have lists : Lists strict.names ["\tR1 ", "", " total\u3000", ""] :=
    .name ⟨['\t'], [' '], blank rfl, blank rfl, rfl⟩ <|
    .gap ⟨[], [], by simp, by simp, rfl⟩ <|
    .name ⟨[' '], ['\u3000'], blank rfl, blank rfl, rfl⟩ <|
    .gap ⟨[], [], by simp, by simp, rfl⟩ .done
  have written : strict.Written "\tR1 ,, total\u3000," "16" " aBORt\n" :=
    ⟨⟨_, lists, by decide +kernel⟩, by decide +kernel,
      "aBORt", by decide +kernel, [' '], ['\n'], blank rfl, blank rfl, rfl⟩
  have commaless : ∀ name ∈ strict.names, ',' ∉ name.toList := by decide
  have short : ∀ count ∈ strict.width.count?, (Nat.toDigits 10 count).length ≤ 4300 := by
    rintro _ ⟨⟩
    decide +kernel
  have read := written_config_is_read_back.2 strict _ _ _ written commaless short
    _ (List.reverse_perm _)
  exact ⟨written, commaless, short, read, written_config_is_read_back.1 _ _ read⟩

end Config
end RegisterMachine
