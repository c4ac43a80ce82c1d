import RegisterMachine.Config
import RegisterMachine.Instruction

/-! Instructions written out. Tokens with single spaces between them are the words of their line,
trimming and the search for a comment leave the line as it is, and so parsing gives back the
instruction that was written. -/
namespace RegisterMachine.Text.Chars

def IsWord (w : Chars) : Prop := w ≠ [] ∧ ∀ c ∈ w, isBlank c = false

def Unmarked (cs : Chars) : Prop := ';' ∉ cs ∧ ¬['/', '/'] <:+: cs

section
variable {c : Char} {cs : Chars}

theorem unmarked_cons :
    Unmarked (c :: cs) ↔ c ≠ ';' ∧ (c = '/' → cs.head? ≠ some '/') ∧ Unmarked cs := by
  have slash_iff : ['/'] <+: cs ↔ cs.head? = some '/' := by
    cases cs <;> simp [List.cons_prefix_cons, eq_comm]
  rw [Unmarked, Unmarked, List.infix_cons_iff, List.cons_prefix_cons, slash_iff, List.mem_cons]
  grind

theorem beforeComment_cons (semicolon : c ≠ ';') (slashes : c = '/' → cs.head? ≠ some '/') :
    beforeComment (c :: cs) = c :: beforeComment cs :=
  beforeComment.eq_4 c cs semicolon fun tail hc split => slashes hc (by rw [split]; rfl)

end

theorem beforeComment_of_unmarked {cs : Chars} (h : Unmarked cs) : beforeComment cs = cs := by
  induction cs with
  | nil => rfl
  | cons c cs ih =>
    obtain ⟨semicolon, slashes, rest⟩ := unmarked_cons.mp h
    rw [beforeComment_cons semicolon slashes, ih rest]

theorem beforeComment_append_of_marked {cs : Chars} (marked : ¬Unmarked cs) (ds : Chars) :
    beforeComment (cs ++ ds) = beforeComment cs := by
  fun_induction beforeComment cs with
  | case1 => exact absurd ⟨by simp, by simp⟩ marked
  | case2 => rfl
  | case3 => rfl
  | case4 c cs semicolon slashes ih =>
    have apart : c = '/' → cs.head? ≠ some '/' := by
      intro hc next
      obtain ⟨tail, split⟩ := List.head?_eq_some_iff.mp next
      exact slashes tail hc split
    have rest : ¬Unmarked cs := fun unmarked =>
      marked (unmarked_cons.mpr ⟨semicolon, apart, unmarked⟩)
    rw [List.cons_append, beforeComment_cons semicolon ?_, ih rest]
    cases cs with
    | nil => exact absurd ⟨by simp, by simp⟩ rest
    | cons d cs => exact apart

/-- Without a slash on both sides no marker begins in one text and ends in the next. -/
theorem beforeComment_append {cs ds : Chars} (unmarked : Unmarked cs)
    (apart : cs.getLast? = some '/' → ds.head? ≠ some '/') :
    beforeComment (cs ++ ds) = cs ++ beforeComment ds := by
  induction cs with
  | nil => rfl
  | cons c cs ih =>
    obtain ⟨semicolon, slashes, rest⟩ := unmarked_cons.mp unmarked
    have slashes : c = '/' → (cs ++ ds).head? ≠ some '/' := by
      cases cs with
      | nil => simpa using apart
      | cons d cs => exact slashes
    rw [List.cons_append, beforeComment_cons semicolon slashes, List.cons_append, ih rest]
    exact fun last => apart (by simp [List.getLast?_cons, last])

def spaced (tokens : List Chars) : Chars := [' '].intercalate tokens

@[simp] theorem spaced_singleton (t : Chars) : spaced [t] = t := List.intercalate_singleton

theorem spaced_cons_cons (t u : Chars) (tokens : List Chars) :
    spaced (t :: u :: tokens) = t ++ ' ' :: spaced (u :: tokens) := by
  simp [spaced, List.intercalate_cons_cons]

theorem words_of_isWord {w : Chars} (h : IsWord w) : words w = [w] := by
  rw [words, List.splitOnP_eq_singleton h.2]
  simp [h.1]

theorem words_spaced {tokens : List Chars} (h : ∀ t ∈ tokens, IsWord t) :
    words (spaced tokens) = tokens := by
  induction tokens with
  | nil => rfl
  | cons t tokens ih =>
    have first : words t = [t] := words_of_isWord (h t (by simp))
    cases tokens with
    | nil => rw [spaced_singleton, first]
    | cons u tokens =>
      rw [spaced_cons_cons, words_append_blank _ _ (by decide), first,
        ih fun v hv => h v (by simp [hv])]
      rfl

theorem beforeComment_spaced {tokens : List Chars} (h : ∀ t ∈ tokens, Unmarked t) :
    beforeComment (spaced tokens) = spaced tokens := by
  induction tokens with
  | nil => rfl
  | cons t tokens ih =>
    have first : beforeComment t = t := beforeComment_of_unmarked (h t (by simp))
    cases tokens with
    | nil => rw [spaced_singleton, first]
    | cons u tokens =>
      have rest := ih fun v hv => h v (by simp [hv])
      rw [spaced_cons_cons, beforeComment_append (h t (by simp)) (by simp),
        beforeComment_cons (by decide) (by simp), rest]

def Tight (cs : Chars) : Prop :=
  (∀ c ∈ cs.head?, isBlank c = false) ∧ ∀ c ∈ cs.getLast?, isBlank c = false

theorem dropWhile_isBlank {cs : Chars} (h : ∀ c ∈ cs.head?, isBlank c = false) :
    cs.dropWhile isBlank = cs := by
  cases cs with
  | nil => rfl
  | cons c cs => simp [h c rfl]

theorem trim_of_tight {cs : Chars} (h : Tight cs) : trim cs = cs := by
  rw [trim, trimStart, dropWhile_isBlank h.1, trimEnd, dropWhile_isBlank, List.reverse_reverse]
  rw [List.head?_reverse]
  exact h.2

theorem tight_of_isWord {w : Chars} (h : IsWord w) : Tight w :=
  ⟨fun c hc => h.2 c (List.mem_of_mem_head? hc), fun c hc => h.2 c (List.mem_of_getLast? hc)⟩

theorem spaced_ne_nil {t : Chars} {tokens : List Chars} (h : t ≠ []) :
    spaced (t :: tokens) ≠ [] := by
  cases tokens with
  | nil => simpa using h
  | cons u tokens => simp [spaced_cons_cons]

theorem tight_spaced {tokens : List Chars} (h : ∀ t ∈ tokens, IsWord t) :
    Tight (spaced tokens) := by
  induction tokens with
  | nil => exact ⟨by simp [spaced], by simp [spaced]⟩
  | cons t tokens ih =>
    have first : IsWord t := h t (by simp)
    cases tokens with
    | nil =>
      rw [spaced_singleton]
      exact tight_of_isWord first
    | cons u tokens =>
      have rest : Tight (spaced (u :: tokens)) := ih fun v hv => h v (by simp [hv])
      have nonempty : spaced (u :: tokens) ≠ [] := spaced_ne_nil (h u (by simp)).1
      rw [spaced_cons_cons]
      constructor
      · obtain ⟨c, w, rfl⟩ := List.exists_cons_of_ne_nil first.1
        exact (tight_of_isWord first).1
      · rw [List.getLast?_append, List.getLast?_cons_of_ne_nil nonempty,
          List.getLast?_eq_some_getLast nonempty, Option.some_or, ← List.getLast?_eq_some_getLast]
        exact rest.2

theorem mem_intercalate {c : Char} {separator : Chars} {pieces : List Chars}
    (h : c ∈ separator.intercalate pieces) : c ∈ separator ∨ ∃ piece ∈ pieces, c ∈ piece := by
  induction pieces with
  | nil => cases h
  | cons first pieces ih =>
    cases pieces with
    | nil => exact .inr ⟨first, by simp, by simpa using h⟩
    | cons next pieces =>
      rw [List.intercalate_cons_cons, List.mem_append, List.mem_append] at h
      rcases h with (h | h) | h
      · exact .inr ⟨first, by simp, h⟩
      · exact .inl h
      · rcases ih h with hc | ⟨piece, hpiece, hc⟩
        · exact .inl hc
        · exact .inr ⟨piece, by simp [hpiece], hc⟩

theorem mem_spaced {c : Char} {tokens : List Chars} (h : c ∈ spaced tokens) :
    c = ' ' ∨ ∃ t ∈ tokens, c ∈ t := by
  simpa using mem_intercalate h

theorem unifyEnds_of_not_mem {cs : Chars} (h : '\r' ∉ cs) : unifyEnds cs = cs := by
  fun_induction unifyEnds cs with
  | case1 => rfl
  | case2 => exact absurd (by simp) h
  | case3 => exact absurd (by simp) h
  | case4 c cs _ _ ih => rw [ih fun hc => h (by simp [hc])]

theorem of_mem_splitOnP {p : Char → Bool} {cs piece : Chars} (h : piece ∈ cs.splitOnP p) :
    ∀ c ∈ piece, c ∈ cs ∧ p c = false := by
  induction cs generalizing piece with
  | nil =>
    rw [List.splitOnP_nil, List.mem_singleton] at h
    simp [h]
  | cons d cs ih =>
    rw [List.splitOnP_cons_eq_if_modifyHead] at h
    split at h
    · rcases List.mem_cons.mp h with rfl | h
      · simp
      · exact fun c hc => ⟨List.mem_cons_of_mem _ (ih h c hc).1, (ih h c hc).2⟩
    next hd =>
      obtain ⟨first, rest, split⟩ := List.exists_cons_of_ne_nil (List.splitOnP_ne_nil p cs)
      rw [split] at h ih
      rcases List.mem_cons.mp h with rfl | h
      · rw [List.forall_mem_cons]
        refine ⟨⟨by simp, by simpa using hd⟩, fun c hc => ?_⟩
        have := ih List.mem_cons_self c hc
        exact ⟨List.mem_cons_of_mem _ this.1, this.2⟩
      · intro c hc
        have := ih (List.mem_cons_of_mem _ h) c hc
        exact ⟨List.mem_cons_of_mem _ this.1, this.2⟩

end RegisterMachine.Text.Chars

namespace RegisterMachine

def Text.IsLine (s : String) : Prop := '\n' ∉ s.toList ∧ '\r' ∉ s.toList

theorem Text.splitOn_unlines {pieces : List String} (h : ∀ s ∈ pieces, IsLine s)
    (ne : pieces ≠ []) : ((unlines pieces).toList.splitOn '\n').map String.ofList = pieces := by
  have feed_not_mem : ∀ cs ∈ pieces.map String.toList, '\n' ∉ cs := by
    intro cs hcs
    obtain ⟨s, hs, rfl⟩ := List.mem_map.mp hcs
    exact (h s hs).1
  rw [unlines, String.toList_intercalate, show "\n".toList = ['\n'] from rfl,
    List.splitOn_intercalate '\n' feed_not_mem (by simpa using ne), List.map_map]
  simp [Function.comp_def]

theorem Text.lines_unlines {pieces : List String} (h : ∀ s ∈ pieces, IsLine s) (ne : pieces ≠ []) :
    lines (unlines pieces) = pieces := by
  have return_not_mem : '\r' ∉ (unlines pieces).toList := by
    rw [unlines, String.toList_intercalate]
    intro mem
    rcases Chars.mem_intercalate mem with hc | ⟨cs, hcs, hc⟩
    · revert hc
      decide
    · obtain ⟨s, hs, rfl⟩ := List.mem_map.mp hcs
      exact (h s hs).2 hc
  rw [lines, Chars.lines, Chars.unifyEnds_of_not_mem return_not_mem, splitOn_unlines h ne]

theorem Text.lines_of_isLine {s : String} (h : IsLine s) : lines s = [s] := by
  have alone : lines (unlines [s]) = [s] := lines_unlines (by simpa using h) (by simp)
  rwa [unlines, String.intercalate_singleton] at alone

theorem Text.isLine_of_mem_lines {s source : String} (h : s ∈ lines source) : IsLine s := by
  obtain ⟨piece, hpiece, rfl⟩ := List.mem_map.mp h
  have inside := Chars.of_mem_splitOnP hpiece
  rw [IsLine, String.toList_ofList]
  constructor
  · intro feed
    have := (inside _ feed).2
    simp at this
  · exact fun ret => Chars.return_not_mem_unifyEnds _ (inside _ ret).1

/-- A word that can stand in a program, where comments may have to be kept out. -/
def IsToken (comments : Bool) (s : String) : Prop :=
  isRegisterName s = true ∧ (comments = true → Text.Chars.Unmarked s.toList)

theorem IsToken.isWord {comments : Bool} {s : String} (h : IsToken comments s) :
    Text.Chars.IsWord s.toList := (isRegisterName_iff s).mp h.1

namespace Instruction

theorem toList_code (i : Instruction) :
    i.code.toList = Text.Chars.spaced ((i.opcode :: i.operands).map String.toList) := by
  simp [code, String.toList_intercalate, Text.Chars.spaced]

def Written (comments : Bool) (i : Instruction) : Prop :=
  ∀ t ∈ i.opcode :: i.operands, IsToken comments t

section
variable {comments : Bool} {i : Instruction}

theorem Written.isWord (h : Written comments i) :
    ∀ t ∈ (i.opcode :: i.operands).map String.toList, Text.Chars.IsWord t := by
  intro t ht
  obtain ⟨s, hs, rfl⟩ := List.mem_map.mp ht
  exact (h s hs).isWord

theorem trim_code (h : Written comments i) : Text.trim i.code = i.code := by
  rw [Text.trim, toList_code, Text.Chars.trim_of_tight (Text.Chars.tight_spaced h.isWord),
    ← toList_code, String.ofList_toList]

theorem beforeComment_code (h : Written true i) : Text.beforeComment i.code = i.code := by
  have unmarked : ∀ t ∈ (i.opcode :: i.operands).map String.toList, Text.Chars.Unmarked t := by
    intro t ht
    obtain ⟨s, hs, rfl⟩ := List.mem_map.mp ht
    exact (h s hs).2 rfl
  rw [Text.beforeComment, toList_code, Text.Chars.beforeComment_spaced unmarked, ← toList_code,
    String.ofList_toList]

theorem words_code (h : Written comments i) : Text.words i.code = i.opcode :: i.operands := by
  rw [Text.words, toList_code, Text.Chars.words_spaced h.isWord, List.map_map]
  simp [Function.comp_def]

theorem parse_code (h : Written comments i) (line : Int) :
    parse comments line i.code = some { i with line := line, text := i.code } := by
  have uncommented : (if comments = true then Text.beforeComment i.code else i.code) = i.code := by
    cases comments with
    | false => rfl
    | true => exact beforeComment_code h
  simp only [parse, trim_code h, uncommented, words_code h]

theorem isLine_code (h : Written comments i) : Text.IsLine i.code := by
  have not_mem (c : Char) (blank : Text.isBlank c = true) (hc : c ≠ ' ') : c ∉ i.code.toList := by
    intro hmem
    rw [toList_code] at hmem
    rcases Text.Chars.mem_spaced hmem with rfl | ⟨t, ht, hct⟩
    · exact hc rfl
    · rw [(h.isWord t ht).2 c hct] at blank
      cases blank
  exact ⟨not_mem '\n' (by decide) (by decide), not_mem '\r' (by decide) (by decide)⟩

theorem parse_trim_code (h : Written comments i) (number : Int) :
    parse comments number (Text.trim i.code) = some { i with line := number, text := i.code } := by
  rw [trim_code h, parse_code h]

end

end Instruction

namespace Opcode

def on (op : Opcode) (operands : List String) : Instruction := { opcode := op.name, operands }

theorem isToken_name (comments : Bool) (op : Opcode) : IsToken comments op.name := by
  cases op <;> exact ⟨by decide, fun _ => ⟨by decide, by decide⟩⟩

theorem written_on {comments : Bool} (op : Opcode) {operands : List String}
    (h : ∀ t ∈ operands, IsToken comments t) : (op.on operands).Written comments := by
  intro t ht
  rcases List.mem_cons.mp ht with rfl | ht
  · exact op.isToken_name comments
  · exact h t ht

end Opcode
end RegisterMachine
