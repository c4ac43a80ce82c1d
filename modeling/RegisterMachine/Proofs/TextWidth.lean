import RegisterMachine.Proofs.Arguments
import RegisterMachine.Proofs.Fields

/-! Widths given as text. A text that spells an integer gives the configuration, or the complaint,
that the integer gives; only zero is recognised by its plain spelling alone, and any other spelling
of it is complained about as a width of no bits. -/
namespace RegisterMachine
namespace Config

theorem Draft.ofFields_of_keys {fields fields' : List (String × Datum)}
    (same : fields.map Prod.fst = fields'.map Prod.fst)
    (unknown : ¬∀ field ∈ fields, field.1 ∈ keys) :
    Draft.ofFields fields = Draft.ofFields fields' := by
  cases found : (fields.map Prod.fst).filter (· ∉ keys) with
  | nil => exact absurd (by simpa [List.filter_eq_nil_iff] using found) unknown
  | cons first rest =>
    simp only [Draft.ofFields, ← same, found]
    rfl

theorem lookup_beside_width {before after : List (String × Datum)} {d : Datum} {key : String}
    (ne : key ≠ "word_bits") :
    (before ++ ("word_bits", d) :: after).lookup key = (before ++ after).lookup key := by
  have other : (key == "word_bits") = false := by simpa using ne
  simp only [List.lookup_append, List.lookup_cons, other]

theorem Draft.accept_with_bits {draft : Draft} {c : Config} (h : draft.accept = .ok c) (d : Datum) :
    ({ draft with bits := d } : Draft).accept =
      (Draft.checkWidth d).map fun width => { c with width } := by
  unfold accept at h ⊢
  split at h
  · cases h
  · cases h
  next first rest elements =>
    obtain ⟨name, read, h⟩ := bind_eq_ok_iff.mp h
    obtain ⟨names, reads, h⟩ := bind_eq_ok_iff.mp h
    split at h
    next distinct =>
      obtain ⟨width, checked, h⟩ := bind_eq_ok_iff.mp h
      obtain ⟨policy, known, h⟩ := bind_eq_ok_iff.mp h
      cases h
      simp only [elements, read, reads, known, bind, Except.bind, dif_pos distinct]
      cases checkWidth d <;> rfl
    · cases h

section
variable {before after : List (String × Datum)} {d d' b b' : Datum}
  (first : before.lookup "word_bits" = none)
include first

theorem Draft.ofFields_width (known : ∀ field ∈ before ++ after, field.1 ∈ keys) :
    Draft.ofFields (before ++ ("word_bits", d) :: after) = do
      let names ← namesOf ((before ++ after).lookup "registers")
      let bits ← readBits d
      let policy ← policyOf ((before ++ after).lookup "on_error")
      return {
        names, bits, policy, comments := commentsOf ((before ++ after).lookup "allow_comments") } := by
  have width : "word_bits" ∈ keys := by decide
  have all : ∀ field ∈ before ++ ("word_bits", d) :: after, field.1 ∈ keys := by
    simp only [List.mem_append, List.mem_cons] at known ⊢
    rintro field (mem | rfl | mem)
    · exact known field (.inl mem)
    · exact width
    · exact known field (.inr mem)
  have given : (before ++ ("word_bits", d) :: after).lookup "word_bits" = some d := by
    simp [List.lookup_append, first]
  have registers : "registers" ≠ "word_bits" := by decide
  have policy : "on_error" ≠ "word_bits" := by decide
  have comments : "allow_comments" ≠ "word_bits" := by decide
  rw [ofFields_eq all, given, lookup_beside_width registers, lookup_beside_width policy,
    lookup_beside_width comments]
  rfl

theorem ofFields_congr_width (same : readBits d = readBits d') :
    ofFields (before ++ ("word_bits", d) :: after) =
      ofFields (before ++ ("word_bits", d') :: after) := by
  refine congrArg (· >>= Draft.accept) ?_
  by_cases known : ∀ field ∈ before ++ after, field.1 ∈ Draft.keys
  · rw [Draft.ofFields_width first known, Draft.ofFields_width first known, same]
  · -- Unknown keys are complained about before any field is read.
    refine Draft.ofFields_of_keys (by simp) fun all => known fun field mem => all field ?_
    simp only [List.mem_append, List.mem_cons] at mem ⊢
    exact mem.imp_right .inr

theorem ofFields_of_width (read : readBits d = .ok b) (read' : readBits d' = .ok b') {c : Config}
    (h : ofFields (before ++ ("word_bits", d) :: after) = .ok c) :
    Draft.checkWidth b = .ok c.width ∧ ofFields (before ++ ("word_bits", d') :: after) =
      (Draft.checkWidth b').map fun width => { c with width } := by
  obtain ⟨draft, drafted, accepted⟩ := bind_eq_ok_iff.mp h
  have known : ∀ field ∈ before ++ after, field.1 ∈ Draft.keys := by
    intro field mem
    refine Draft.known_of_ofFields drafted field ?_
    simp only [List.mem_append, List.mem_cons] at mem ⊢
    exact mem.imp_right .inr
  rw [Draft.ofFields_width first known, read] at drafted
  obtain ⟨names, named, drafted⟩ := bind_eq_ok_iff.mp drafted
  obtain ⟨bits, same, drafted⟩ := bind_eq_ok_iff.mp drafted
  obtain ⟨policy, chosen, drafted⟩ := bind_eq_ok_iff.mp drafted
  cases same
  cases drafted
  refine ⟨(Draft.accept_eq_ok_iff.mp accepted).2.1, ?_⟩
  rw [ofFields, Draft.ofFields_width first known, named, read', chosen]
  exact Draft.accept_with_bits accepted b'

end

section
variable {s : String} {n : Int} (read : Numeral.read? s = some n)
include read

theorem readBits_text (spelled : s ≠ "0") : readBits (.text s) = .ok (.int n) := by
  have nonempty : s ≠ "" := by
    rintro rfl
    have empty : Numeral.read? "" = none := by decide
    rw [empty] at read
    cases read
  simp [readBits, asksUnbounded, spelled, nonempty, read]

theorem readBits_text_eq_int (plain : n = 0 → s = "0") :
    readBits (.text s) = readBits (.int n) := by
  by_cases zero : n = 0
  · rw [plain zero, zero]
    rfl
  · have spelled : s ≠ "0" := by
      rintro rfl
      have : Numeral.read? "0" = some 0 := by decide
      rw [this] at read
      exact zero (Option.some.inj read).symm
    rw [readBits_text read spelled]
    simp [readBits, asksUnbounded, zero]

end

theorem checkWidth_zero :
    Draft.checkWidth (.int 0) = .error (.rejected (.bitsTooFew "0")) := by
  have fits : Numeral.Fits 0 := (Numeral.fits_iff 0).mpr (by decide)
  have written : Datum.written? (.int 0) = some "0" := by
    rw [Datum.written?, Numeral.write?_of_fits fits]
    rfl
  simp [Draft.checkWidth, Width.ofBits?, refuse, written]

/-- What comes of a width given as text, against the integer that it spells. -/
structure TextWidth (s : String) (n : Int) (outcome : Datum → Except Failure Config) : Prop where
  same : (n = 0 → s = "0") → outcome (.text s) = outcome (.int n)
  /-- Zero stands for unbounded registers, but a text other than its plain spelling for a width. -/
  zero : n = 0 → s ≠ "0" → ∀ c, outcome (.int n) = .ok c →
    c.width = .unbounded ∧ outcome (.text s) = .error (.rejected (.bitsTooFew "0"))

theorem textWidth {s : String} {n : Int} (read : Numeral.read? s = some n)
    {before : List (String × Datum)} (first : before.lookup "word_bits" = none)
    (after : List (String × Datum)) :
    TextWidth s n fun d => ofFields (before ++ ("word_bits", d) :: after) where
  same plain := ofFields_congr_width first (readBits_text_eq_int read plain)
  zero := by
    rintro rfl spelled c made
    obtain ⟨unbounded, rejected⟩ :=
      ofFields_of_width first (show readBits (.int 0) = .ok .null from rfl)
        (readBits_text read spelled) made
    refine ⟨(Except.ok.inj unbounded).symm, ?_⟩
    rw [rejected, checkWidth_zero]
    rfl

theorem ofFields_zero :
    ofFields [("word_bits", .int 0)] = .ok { Config.default with width := .unbounded } :=
  bind_eq_ok_iff.mpr
    ⟨{ bits := .null }, rfl, Draft.accept_eq_ok_iff.mpr ⟨rfl, rfl, rfl, rfl⟩⟩

theorem ofFields_text_eq_iff {s : String} {n : Int} (read : Numeral.read? s = some n) :
    ofFields [("word_bits", .text s)] = ofFields [("word_bits", .int n)] ↔ (n = 0 → s = "0") := by
  have only : TextWidth s n fun d => ofFields ([] ++ ("word_bits", d) :: []) :=
    textWidth read rfl []
  refine ⟨?_, only.same⟩
  rintro same rfl
  refine Decidable.byContradiction fun spelled => ?_
  have rejected := (only.zero rfl spelled _ ofFields_zero).2
  rw [List.nil_append, same, ofFields_zero] at rejected
  cases rejected

end Config

namespace CommandLine

def Options.fieldsBesideWidth (o : Options) : List (String × Datum) :=
  let policy : Argument := (o.policy.map fun p => .word p.name).getD .nothing
  [("on_error", policy.datum), ("allow_comments", .bool o.comments)] ++
    o.registers.toList.map fun a => ("registers", a.datum)

theorem Options.config_eq {o : Options} {a : Argument} (given : o.wordBits = some a) :
    o.config = Config.ofFields (o.fieldsBesideWidth ++ [("word_bits", a.datum)]) := by
  rw [config, given]
  rfl

theorem Options.lookup_fieldsBesideWidth (o : Options) :
    o.fieldsBesideWidth.lookup "word_bits" = none := by
  cases registers : o.registers <;> simp [fieldsBesideWidth, registers, List.lookup_cons]

theorem Choice.exists_options {choice : Choice} {name s : String} {n : Int}
    (plain : Word.ofString name = .ok (.plain name)) (given : choice.wordBits = some s)
    (read : Numeral.read? s = some n) : ∃ o, Options.ofStrings (choice.words name) = .ok o ∧
      o.config = Config.ofFields (o.fieldsBesideWidth ++ [("word_bits", .text s)]) := by
  have separator : s ≠ "--" := by
    rintro rfl
    have unread : Numeral.read? "--" = none := by decide
    rw [unread] at read
    cases read
  have bits : (choice.options name).wordBits = some (.word s) := by
    rw [options, given, Option.map_some, Argument.ofJoined, if_neg separator]
  exact ⟨choice.options name, choice.ofStrings_words plain, Options.config_eq bits⟩

end CommandLine

namespace Config
open CommandLine

/-- A text that spells an integer is a width just as the integer is, among any other fields and on
the command line, unless it spells zero otherwise than plainly. -/
theorem text_width_means_integer {s : String} {n : Int} (read : Numeral.read? s = some n) :
    (∀ before after, before.lookup "word_bits" = none →
      TextWidth s n fun d => ofFields (before ++ ("word_bits", d) :: after)) ∧
    (ofFields [("word_bits", .text s)] = ofFields [("word_bits", .int n)] ↔ (n = 0 → s = "0")) ∧
    ∀ (choice : Choice) name, Word.ofString name = .ok (.plain name) →
      choice.wordBits = some s → ∃ o, Options.ofStrings (choice.words name) = .ok o ∧
        o.config = ofFields (o.fieldsBesideWidth ++ [("word_bits", .text s)]) ∧
        TextWidth s n fun d => ofFields (o.fieldsBesideWidth ++ [("word_bits", d)]) := by
  refine ⟨fun before after first => textWidth read first after, ofFields_text_eq_iff read,
    fun choice name plain given => ?_⟩
  obtain ⟨o, parsed, made⟩ := Choice.exists_options plain given read
  exact ⟨o, parsed, made, textWidth read o.lookup_fieldsBesideWidth []⟩

theorem text_width_of_padded_sixteen :
    Numeral.read? " +1_6\n" = some 16 ∧
      ofFields [("word_bits", .text " +1_6\n")] = ofFields [("word_bits", .int 16)] ∧
      (∃ o, Options.ofStrings ["add.vm", "--word-bits= +1_6\n"] = .ok o ∧
        o.config = ofFields (o.fieldsBesideWidth ++ [("word_bits", .int 16)])) ∧
      Numeral.read? "-0" = some 0 ∧
      ofFields [("word_bits", .text "-0")] = .error (.rejected (.bitsTooFew "0")) := by
  have sixteen : Numeral.read? " +1_6\n" = some 16 := by decide
  have zero : Numeral.read? "-0" = some 0 := by decide
  obtain ⟨-, only, typed⟩ := text_width_means_integer sixteen
  obtain ⟨o, parsed, made, width⟩ :=
    typed { wordBits := some " +1_6\n" } "add.vm" (by decide +kernel) rfl
  have words : Choice.words { wordBits := some " +1_6\n" } "add.vm" =
      ["add.vm", "--word-bits= +1_6\n"] := by decide
  rw [words] at parsed
  refine ⟨sixteen, only.mpr (by decide), ⟨o, parsed, made.trans (width.same (by decide))⟩, zero, ?_⟩
  exact (((text_width_means_integer zero).1 [] [] rfl).zero rfl (by decide) _ ofFields_zero).2

/-- Zero spelled with two digits is not taken for zero. -/
theorem two_zeros_are_no_zero : ¬∀ s n, Numeral.read? s = some n →
    ofFields [("word_bits", .text s)] = ofFields [("word_bits", .int n)] := by
  intro same
  have zero : Numeral.read? "00" = some 0 := by decide
  exact absurd ((ofFields_text_eq_iff zero).mp (same "00" 0 zero) rfl) (by decide)

end Config
end RegisterMachine
