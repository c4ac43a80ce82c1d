import RegisterMachine.Proofs.Order

/-! What is one line. Tokens and register names hold no blank, quoting escapes every line end, and
the text of a line is a part of it; so whatever a source holds, what is put together of them is one
line again. -/
namespace RegisterMachine

namespace Text

instance (s : String) : Decidable (IsLine s) := inferInstanceAs (Decidable (_ ∧ _))

theorem isLine_iff {s : String} : IsLine s ↔ ∀ c ∈ s.toList, c ≠ '\n' ∧ c ≠ '\r' := by
  constructor
  · rintro ⟨feed, back⟩ c hc
    exact ⟨fun h => feed (h ▸ hc), fun h => back (h ▸ hc)⟩
  · intro h
    exact ⟨fun feed => (h _ feed).1 rfl, fun back => (h _ back).2 rfl⟩

theorem IsLine.append {s t : String} (hs : IsLine s) (ht : IsLine t) : IsLine (s ++ t) := by
  rw [isLine_iff, String.toList_append]
  exact List.forall_mem_append.mpr ⟨isLine_iff.mp hs, isLine_iff.mp ht⟩

theorem isLine_intercalate {separator : String} {pieces : List String} (hs : IsLine separator)
    (h : ∀ s ∈ pieces, IsLine s) : IsLine (separator.intercalate pieces) := by
  rw [isLine_iff, String.toList_intercalate]
  intro c hc
  rcases Chars.mem_intercalate hc with hc | ⟨cs, hcs, hc⟩
  · exact isLine_iff.mp hs c hc
  · obtain ⟨s, mem, rfl⟩ := List.mem_map.mp hcs
    exact isLine_iff.mp (h s mem) c hc

theorem ne_of_not_blank {c : Char} (h : isBlank c = false) : c ≠ '\n' ∧ c ≠ '\r' := by
  constructor
  · rintro rfl
    cases h
  · rintro rfl
    cases h

theorem isLine_of_isWord {s : String} (h : Chars.IsWord s.toList) : IsLine s :=
  isLine_iff.mpr fun c hc => ne_of_not_blank (h.2 c hc)

theorem IsLine.trim {s : String} (h : IsLine s) : IsLine (trim s) := by
  have part : Chars.trim s.toList ⊆ s.toList :=
    List.Subset.trans (Chars.trimEnd_isPrefix _).subset (List.dropWhile_suffix isBlank).subset
  rw [Text.trim, IsLine, String.toList_ofList]
  exact ⟨fun feed => h.1 (part feed), fun back => h.2 (part back)⟩

theorem isBlank_digitChar (d : Nat) : isBlank (Nat.digitChar d) = false := by
  by_cases small : d < 16
  · have all : ∀ d < 16, isBlank (Nat.digitChar d) = false := by decide
    exact all d small
  · have star : Nat.digitChar d = '*' := by
      unfold Nat.digitChar
      repeat rw [if_neg (by omega)]
    rw [star]
    rfl

theorem not_blank_of_mem_toDigits {base n : Nat} (two_le : 2 ≤ base) {c : Char}
    (h : c ∈ Nat.toDigits base n) : isBlank c = false := by
  induction n using Nat.strongRecOn with
  | ind n ih =>
    by_cases lt : n < base
    · rw [Nat.toDigits_of_lt_base lt, List.mem_singleton] at h
      rw [h, isBlank_digitChar]
    · have le : base ≤ n := Nat.le_of_not_lt lt
      rw [Nat.toDigits_of_base_le two_le le, List.mem_append, List.mem_singleton] at h
      rcases h with h | h
      · exact ih (n / base) (Nat.div_lt_self (by omega) two_le) h
      · rw [h, isBlank_digitChar]

theorem isLine_repr (n : Nat) : IsLine n.repr := by
  rw [isLine_iff, Nat.repr_eq_ofList_toDigits, String.toList_ofList]
  exact fun c hc => ne_of_not_blank (not_blank_of_mem_toDigits (by decide) hc)

theorem isLine_numeral (v : Int) : IsLine (Numeral.text v) := by
  unfold Numeral.text
  split
  · exact .append (by decide) (isLine_repr _)
  · exact isLine_repr _

theorem not_blank_of_mem_hex {width n : Nat} {c : Char} (h : c ∈ hex width n) :
    isBlank c = false := by
  rcases List.mem_append.mp h with h | h
  · rw [(List.mem_replicate.mp h).2]
    rfl
  · exact not_blank_of_mem_toDigits (by decide) h

theorem ne_of_mem_escape {mark c : Char} (hm : mark ≠ '\n' ∧ mark ≠ '\r') :
    ∀ d ∈ Quoted.escape mark c, d ≠ '\n' ∧ d ≠ '\r' := by
  have backslash : Quoted.backslash ≠ '\n' ∧ Quoted.backslash ≠ '\r' := by decide
  have digits {width n : Nat} : ∀ d ∈ hex width n, d ≠ '\n' ∧ d ≠ '\r' :=
    fun d hd => ne_of_not_blank (not_blank_of_mem_hex hd)
  unfold Quoted.escape
  split_ifs with own feed back tab printable byte word
  · have hc : c ≠ '\n' ∧ c ≠ '\r' := by
      rcases own with rfl | rfl
      · exact hm
      · exact backslash
    simpa using ⟨backslash, hc⟩
  · simp [backslash]
  · simp [backslash]
  · simp [backslash]
  · simpa using ⟨feed, back⟩
  · simpa [backslash] using digits
  · simpa [backslash] using digits
  · simpa [backslash] using digits

theorem isLine_quoted (s : String) : IsLine (quoted s) := by
  have hm : Quoted.mark s.toList ≠ '\n' ∧ Quoted.mark s.toList ≠ '\r' := by
    unfold Quoted.mark
    split <;> decide
  rw [isLine_iff, quoted, String.toList_ofList, Quoted.encode]
  refine List.forall_mem_append.mpr ⟨List.forall_mem_cons.mpr ⟨hm, ?_⟩,
    List.forall_mem_singleton.mpr hm⟩
  intro d hd
  obtain ⟨c, _, escaped⟩ := List.mem_flatMap.mp hd
  exact ne_of_mem_escape hm d escaped

end Text

theorem Literal.isLine_detail_of_read {low high : Option Int} {token : String} {defect : Defect}
    (h : read low high token = .error defect) : Text.IsLine defect.detail := by
  have shown (b : Option Int) : Text.IsLine (bound b) := by
    cases b with
    | none => decide
    | some v => exact Text.isLine_numeral v
  simp only [read] at h
  split at h
  · cases h
    decide
  · split at h
    · cases h
      decide
    · split at h
      · cases h
      · cases h
        exact .append (.append (.append (.append (by decide) (shown low)) (by decide))
          (shown high)) (by decide)

section
variable {w : Width} {r : Registers}

theorem Effect.Refused.isLine_reason {op : Opcode} {operands : List String} {fault : Fault}
    (h : Refused w r op operands fault)
    (words : ∀ t ∈ operands, Text.Chars.IsWord t.toList)
    (names : ∀ n ∈ r.names, Text.Chars.IsWord n.toList) : Text.IsLine fault.reason := by
  have unknown (name : String) : Text.IsLine (r.unknown name).reason := by
    have known : Text.IsLine (", ".intercalate r.names) :=
      Text.isLine_intercalate (by decide) fun n hn => Text.isLine_of_isWord (names n hn)
    refine .append (.append (by decide) (Text.isLine_quoted name)) ?_
    split
    · decide
    · exact .append (.append (by decide) known) (by decide)
  cases h with
  | arity few =>
    have noun : Text.IsLine (if (op.arity : Int) = 1 then " operand" else " operands") := by
      split <;> decide
    have name : Text.IsLine op.name := by cases op <;> decide
    have expects : Text.IsLine (op.name ++ " expects ") := name.append (by decide)
    exact .append (.append (.append (.append expects (Text.isLine_numeral _)) noun) (by decide))
      (Text.isLine_numeral _)
  | loadTarget | addTarget | addSource | printSource => exact unknown _
  | defect declared bounds read writable =>
    exact .append (.append (Text.isLine_quoted _) (by decide)) (Literal.isLine_detail_of_read read)
  | overflow left right folded exceeds =>
    have target := Text.isLine_of_isWord (words _ List.mem_cons_self)
    exact .append (.append (.append (.append (by decide) target) (by decide))
      (Text.isLine_numeral _)) (by decide)

variable {i : Instruction} {s : Step}

theorem Step.Taken.isLine_report (h : Taken w r i s)
    (words : ∀ t ∈ i.opcode :: i.operands, Text.Chars.IsWord t.toList)
    (names : ∀ n ∈ r.names, Text.Chars.IsWord n.toList) : Text.IsLine s.report := by
  obtain ⟨opcode, words⟩ := List.forall_mem_cons.mp words
  cases h with
  | unknown => exact .append (by decide) (Text.isLine_of_isWord opcode)
  | failed _ refused =>
    have place : Text.IsLine (place i.line) := by
      unfold Step.place
      split
      · decide
      · exact .append (by decide) (Text.isLine_numeral _)
    exact .append (.append (.append (by decide) place) (by decide))
      (refused.isLine_reason words names)
  | done _ due =>
    have lines : ∀ t ∈ i.operands, Text.IsLine t := fun t ht => Text.isLine_of_isWord (words t ht)
    generalize i.operands = operands at due lines
    cases due with
    | load =>
      exact .append (.append (.append (by decide) (lines _ (by simp))) (by decide))
        (lines _ (by simp))
    | add =>
      exact .append (.append (.append (by decide) (lines _ (by simp))) (by decide))
        (lines _ (by simp))
    | print =>
      exact .append (.append (.append (by decide) (lines _ (by simp))) (by decide))
        (Text.isLine_numeral _)

end

namespace Instruction
variable {comments : Bool} {line : Int} {s : String} {i : Instruction}

theorem isWord_of_parse (h : parse comments line s = some i) :
    ∀ t ∈ i.opcode :: i.operands, Text.Chars.IsWord t.toList :=
  fun t ht => (written_of_parse h t ht).isWord

end Instruction

theorem Machine.Walks.isLine {m : Machine} {source : String} {steps : List Step} {status : Status}
    (walks : m.Walks source steps (.finished status))
    (names : ∀ n ∈ m.registers.names, Text.Chars.IsWord n.toList) :
    ∀ line ∈ (Report.ofSteps m.registers.reset steps status).lines, Text.IsLine line := by
  have blocks : ∀ step ∈ steps, ∀ line ∈ step.block, Text.IsLine line := by
    intro step hstep
    obtain ⟨mem, r, declared, taken⟩ := walks.exists_taken step hstep
    obtain ⟨k, s, at_k, parse⟩ := Program.mem_parseLines_iff.mp mem
    have text : Text.IsLine step.instruction.text := by
      rw [Instruction.text_of_parse parse]
      exact (Text.isLine_of_mem_lines (List.mem_of_getElem? at_k)).trim
    have report := taken.isLine_report (Instruction.isWord_of_parse parse)
      (by rwa [declared])
    simp only [Step.block, List.forall_mem_cons, List.not_mem_nil, false_imp_iff, implies_true,
      and_true]
    exact ⟨.append (by decide) text, report, by decide⟩
  have status : Text.IsLine status.text := by
    cases status with
    | aborted line => exact .append (.append (by decide) (Text.isLine_numeral line)) (by decide)
    | idle | ready | completed => decide
  intro line hline
  simp only [Report.ofSteps, List.mem_append, List.mem_cons, List.mem_flatMap,
    List.not_mem_nil, or_false] at hline
  rcases hline with (rfl | ⟨step, hstep, hline⟩) | rfl
  · decide
  · exact blocks step hstep line hline
  · exact status

end RegisterMachine
