import Mathlib.Data.List.Forall2
import RegisterMachine.Proofs.Decimal
import RegisterMachine.Proofs.NeverStuck
import RegisterMachine.Proofs.OneLine
import RegisterMachine.Proofs.Parsing

/-! The register table read back. A name holds no blank and the longest name makes the column, so
every line of a table splits into a name, an equals sign and the text of a value, with the equals
signs one under the other. Whatever the names are, registers are told apart by their tables. -/
namespace RegisterMachine

theorem Numeral.isWord_text (v : Int) : Text.Chars.IsWord (text v).toList :=
  (isToken_text false v).isWord

theorem Numeral.text_inj {v w : Int} (h : text v = text w) : v = w := by
  rw [← Literal.value_text v, h, Literal.value_text]

namespace Text

theorem toList_spaces (n : Nat) : (spaces n).toList = List.replicate n ' ' := by simp [spaces]

theorem isLine_spaces (n : Nat) : IsLine (spaces n) := by
  rw [isLine_iff, toList_spaces]
  intro c hc
  rw [(List.mem_replicate.mp hc).2]
  decide

end Text

namespace Registers

theorem nameWidth_cons (name : String) (names : List String) :
    nameWidth (name :: names) = max name.length (nameWidth names) := by
  have lengths (names : List String) : nameWidth names = (names.map String.length).foldl max 0 :=
    List.foldl_map.symm
  rw [lengths, lengths, List.map_cons, List.foldl_cons, Nat.max_comm, List.foldl_assoc]

theorem le_nameWidth {names : List String} {name : String} (h : name ∈ names) :
    name.length ≤ nameWidth names := by
  induction names with
  | nil => cases h
  | cons first names ih =>
    rw [nameWidth_cons]
    rcases List.mem_cons.mp h with rfl | h
    · exact Nat.le_max_left _ _
    · exact Nat.le_trans (ih h) (Nat.le_max_right _ _)

/-- One line of a table shows a cell: its name, spaces up to an equals sign in the given column, and
the text of its value. -/
structure ShownOn (column : Nat) (cell : String × Int) (line : String) : Prop where
  parts : ∃ padding, line = cell.1 ++ Text.spaces padding ++ " = " ++ Numeral.text cell.2 ∧
    cell.1.length + padding + 1 = column
  sign : line.toList[column]? = some '='
  words : Text.words line = [cell.1, "=", Numeral.text cell.2]

def rowText (width : Nat) (cell : String × Int) : String :=
  Text.alignLeft width cell.1 ++ " = " ++ Numeral.text cell.2

section
variable {width column : Nat} {cell other : String × Int} {line : String}

theorem toList_rowText (width : Nat) (cell : String × Int) : (rowText width cell).toList =
    cell.1.toList ++ (List.replicate (width - cell.1.length + 1) ' ' ++
      '=' :: ' ' :: (Numeral.text cell.2).toList) := by
  simp [rowText, Text.alignLeft, Text.toList_spaces, List.replicate_succ']

theorem isLine_rowText (word : Text.Chars.IsWord cell.1.toList) :
    Text.IsLine (rowText width cell) := by
  have aligned : Text.IsLine (Text.alignLeft width cell.1) :=
    (Text.isLine_of_isWord word).append (Text.isLine_spaces _)
  exact (aligned.append (by decide)).append (Text.isLine_numeral _)

theorem words_rowText (word : Text.Chars.IsWord cell.1.toList) :
    Text.words (rowText width cell) = [cell.1, "=", Numeral.text cell.2] := by
  have gap : ∀ c ∈ List.replicate (width - cell.1.length + 1) ' ', Text.isBlank c = true := by
    intro c hc
    rw [(List.mem_replicate.mp hc).2]
    rfl
  have value : Text.Chars.words ('=' :: ' ' :: (Numeral.text cell.2).toList) =
      [['='], (Numeral.text cell.2).toList] := by
    have tokens : ∀ t ∈ [['='], (Numeral.text cell.2).toList], Text.Chars.IsWord t := by
      intro t ht
      rcases List.mem_pair.mp ht with rfl | rfl
      · exact ⟨List.cons_ne_nil _ _, List.forall_mem_singleton.mpr rfl⟩
      · exact Numeral.isWord_text _
    have words := Text.Chars.words_spaced tokens
    rwa [Text.Chars.spaced_cons_cons, Text.Chars.spaced_singleton] at words
  rw [Text.words, toList_rowText, Text.Chars.words_word_append word,
    Text.Chars.words_blanks_append gap, value]
  · simp
  · rw [List.replicate_succ]
    rintro c ⟨⟩
    rfl

theorem shownOn_rowText (word : Text.Chars.IsWord cell.1.toList) (room : cell.1.length ≤ width) :
    ShownOn (width + 1) cell (rowText width cell) where
  parts := ⟨width - cell.1.length, rfl, by omega⟩
  sign := by
    have before : (cell.1.toList ++ List.replicate (width - cell.1.length + 1) ' ').length =
        width + 1 := by
      simp [String.length_toList]
      omega
    rw [toList_rowText, ← List.append_assoc, List.getElem?_append_right (Nat.le_of_eq before),
      before, Nat.sub_self]
    rfl
  words := words_rowText word

theorem ShownOn.cell_eq {column' : Nat} (h : ShownOn column cell line)
    (h' : ShownOn column' other line) : cell = other := by
  have words := h.words.symm.trans h'.words
  simp only [List.cons.injEq, true_and, and_true] at words
  exact Prod.ext words.1 (Numeral.text_inj words.2)

end

/-- A text shows registers if it splits at its line feeds into one line for each of them, in order,
with all equals signs in one column. -/
def ShownIn (r : Registers) (table : String) : Prop :=
  ∃ column, List.Forall₂ (ShownOn column) r.cells
    ((table.toList.splitOn '\n').map String.ofList)

theorem ShownIn.eq {r s : Registers} {table : String} (hr : r.ShownIn table)
    (hs : s.ShownIn table) : r = s := by
  obtain ⟨column, shown⟩ := hr
  obtain ⟨column', shown'⟩ := hs
  have unique : Relator.LeftUnique fun cell line => ∃ column, ShownOn column cell line :=
    fun cell other line ⟨_, h⟩ ⟨_, h'⟩ => h.cell_eq h'
  have cells : r.cells = s.cells :=
    List.left_unique_forall₂' unique (shown.imp fun _ _ h => ⟨column, h⟩)
      (shown'.imp fun _ _ h => ⟨column', h⟩)
  exact congrArg mk cells

section
variable {config : Config} {r : Registers} (declared : r.names = config.names)
include declared

theorem isWord_of_mem {cell : String × Int} (h : cell ∈ r.cells) :
    Text.Chars.IsWord cell.1.toList :=
  (isRegisterName_iff _).mp (config.names_valid cell.1 (declared ▸ List.mem_map_of_mem h))

theorem exists_shownIn (fits : ∀ cell ∈ r.cells, Numeral.Fits cell.2) :
    ∃ table, r.table = .ok table ∧ r.ShownIn table := by
  have ne : r.names ≠ [] := declared ▸ config.names_ne_nil
  refine ⟨Text.unlines (r.cells.map (rowText (nameWidth r.names))), table_of_fits ne fits,
    nameWidth r.names + 1, ?_⟩
  have isLine : ∀ s ∈ r.cells.map (rowText (nameWidth r.names)), Text.IsLine s := by
    intro s hs
    obtain ⟨cell, mem, rfl⟩ := List.mem_map.mp hs
    exact isLine_rowText (isWord_of_mem declared mem)
  rw [Text.splitOn_unlines isLine (by simpa [names] using ne), List.forall₂_map_right_iff,
    List.forall₂_same]
  intro cell mem
  exact shownOn_rowText (isWord_of_mem declared mem) (le_nameWidth (List.mem_map_of_mem mem))

end

/-- Registers of a configuration whose values can be written have a table, every line of which shows
one of them, and no other registers of any configuration have the same table. -/
theorem table_is_read_back {config : Config} {r : Registers} (declared : r.names = config.names)
    (short : ∀ cell ∈ r.cells, (Nat.toDigits 10 cell.2.natAbs).length ≤ 4300) :
    (∃ table, r.table = .ok table ∧ r.ShownIn table) ∧
    ∀ (other : Config) (s : Registers), s.names = other.names →
      (∀ cell ∈ s.cells, (Nat.toDigits 10 cell.2.natAbs).length ≤ 4300) →
      (r.table = s.table ↔ r = s) := by
  obtain ⟨table, shown, readable⟩ :=
    exists_shownIn declared fun cell mem => (Numeral.fits_iff _).mpr (short cell mem)
  refine ⟨⟨table, shown, readable⟩, fun other s declared' short' => ⟨fun same => ?_, ?_⟩⟩
  · obtain ⟨table', shown', readable'⟩ :=
      exists_shownIn declared' fun cell mem => (Numeral.fits_iff _).mpr (short' cell mem)
    rw [shown, shown', Except.ok.injEq] at same
    exact readable.eq (same ▸ readable')
  · rintro rfl
    rfl

example : (⟨[("R1", 15), ("Total", -3)]⟩ : Registers).table =
    .ok "R1    = 15\nTotal = -3" := by decide +kernel

def signs : Registers := ⟨[("=", -7), ("-7", 10 ^ 30), ("==", 0), ("\u00fc\u200b=", 5)]⟩

def signsConfig : Config where
  names := signs.names
  width := .unbounded
  policy := .skip
  comments := false
  names_ne_nil := by decide
  names_nodup := by decide
  names_valid := by decide

theorem signs_are_read_back : signs.names = signsConfig.names ∧
    (∀ cell ∈ signs.cells, (Nat.toDigits 10 cell.2.natAbs).length ≤ 4300) ∧
    (∃ table, signs.table = .ok table ∧ signs.ShownIn table) ∧
    (signs.set "==" 1).names = signsConfig.names ∧
    (∀ cell ∈ (signs.set "==" 1).cells, (Nat.toDigits 10 cell.2.natAbs).length ≤ 4300) ∧
    signs.table ≠ (signs.set "==" 1).table := by
  have declared : signs.names = signsConfig.names := rfl
  have short : ∀ cell ∈ signs.cells, (Nat.toDigits 10 cell.2.natAbs).length ≤ 4300 := by
    decide +kernel
  have short' : ∀ cell ∈ (signs.set "==" 1).cells,
      (Nat.toDigits 10 cell.2.natAbs).length ≤ 4300 := by decide +kernel
  have declared' : (signs.set "==" 1).names = signsConfig.names := names_set _ _ _
  obtain ⟨shown, told⟩ := table_is_read_back declared short
  refine ⟨declared, short, shown, declared', short', fun same => ?_⟩
  have equal : signs = signs.set "==" 1 := (told signsConfig _ declared' short').mp same
  exact absurd equal (by decide +kernel)

end Registers
end RegisterMachine
