import RegisterMachine.Proofs.Code

/-! The tokens of a line: the words before its comment. Blanks at the ends of a line are in no
token, so a line may be trimmed, once or more often, before it is parsed; and a token holds neither
a blank nor the start of a comment, so it can be written on a line again. -/
namespace RegisterMachine.Text.Chars

theorem trimEnd_isPrefix (cs : Chars) : trimEnd cs <+: cs := by
  have suffix : cs.reverse.dropWhile isBlank <:+ cs.reverse := List.dropWhile_suffix _
  simpa [trimEnd] using List.reverse_prefix.mpr suffix

theorem tight_trim (cs : Chars) : Tight (trim cs) := by
  have first (ds : Chars) : ∀ c ∈ (ds.dropWhile isBlank).head?, isBlank c = false := by
    intro c hc
    have := List.head?_dropWhile_not isBlank ds
    rw [hc] at this
    exact this
  constructor
  · intro c hc
    obtain ⟨rest, split⟩ := trimEnd_isPrefix (trimStart cs)
    apply first cs c
    rw [← trimStart, ← split, List.head?_append, ← trim, hc]
    rfl
  · intro c hc
    rw [trim, trimEnd, List.getLast?_reverse] at hc
    exact first _ c hc

theorem trim_trim (cs : Chars) : trim (trim cs) = trim cs := trim_of_tight (tight_trim cs)

theorem exists_blanks_trim (cs : Chars) : ∃ before after : Chars,
    (∀ c ∈ before, isBlank c = true) ∧ (∀ c ∈ after, isBlank c = true) ∧
      cs = before ++ (trim cs ++ after) := by
  refine ⟨cs.takeWhile isBlank, ((trimStart cs).reverse.takeWhile isBlank).reverse, ?_, ?_, ?_⟩
  · exact List.all_eq_true.mp List.all_takeWhile
  · exact fun c hc => List.all_eq_true.mp List.all_takeWhile c (List.mem_reverse.mp hc)
  · rw [trim, trimEnd, ← List.reverse_append, List.takeWhile_append_dropWhile, List.reverse_reverse,
      trimStart, List.takeWhile_append_dropWhile]

section
variable {blanks : Chars} (blank : ∀ c ∈ blanks, isBlank c = true)
include blank

theorem words_blanks_append (cs : Chars) : words (blanks ++ cs) = words cs := by
  induction blanks with
  | nil => rfl
  | cons c blanks ih =>
    rw [List.cons_append, words_cons_blank (blank c (by simp)),
      ih fun d hd => blank d (by simp [hd])]

theorem words_blanks : words blanks = [] := by
  have := words_blanks_append blank []
  rwa [List.append_nil] at this

theorem words_append_blanks (cs : Chars) : words (cs ++ blanks) = words cs := by
  cases blanks with
  | nil => rw [List.append_nil]
  | cons c blanks =>
    have rest : ∀ d ∈ blanks, isBlank d = true := fun d hd => blank d (by simp [hd])
    rw [words_append_blank _ _ (blank c (by simp)), words_blanks rest, List.append_nil]

theorem beforeComment_blanks_append (cs : Chars) :
    beforeComment (blanks ++ cs) = blanks ++ beforeComment cs := by
  induction blanks with
  | nil => rfl
  | cons c blanks ih =>
    have semicolon : c ≠ ';' := by
      rintro rfl
      exact absurd (blank ';' (by simp)) (by decide)
    have slash : c ≠ '/' := by
      rintro rfl
      exact absurd (blank '/' (by simp)) (by decide)
    rw [List.cons_append, beforeComment_cons semicolon fun hc => absurd hc slash,
      ih fun d hd => blank d (by simp [hd]), List.cons_append]

end

/-- Blanks and a comment after a text leave its words, unless a slash of the text is the first of
two that begin the comment. -/
theorem words_beforeComment_append {cs ds : Chars}
    (blank : ∀ c ∈ beforeComment ds, isBlank c = true)
    (apart : Unmarked cs → cs.getLast? = some '/' → ds.head? ≠ some '/') :
    words (beforeComment (cs ++ ds)) = words (beforeComment cs) := by
  by_cases unmarked : Unmarked cs
  · rw [beforeComment_append unmarked (apart unmarked), words_append_blanks blank,
      beforeComment_of_unmarked unmarked]
  · rw [beforeComment_append_of_marked unmarked]

theorem words_trim (cs : Chars) : words (trim cs) = words cs := by
  obtain ⟨before, after, hbefore, hafter, split⟩ := exists_blanks_trim cs
  calc
    words (trim cs) = words (trim cs ++ after) := (words_append_blanks hafter _).symm
    _ = words (before ++ (trim cs ++ after)) := (words_blanks_append hbefore _).symm
    _ = words cs := by rw [← split]

theorem words_beforeComment_trim (cs : Chars) :
    words (beforeComment (trim cs)) = words (beforeComment cs) := by
  obtain ⟨before, after, hbefore, hafter, split⟩ := exists_blanks_trim cs
  have code : beforeComment after = after := by
    have := beforeComment_blanks_append hafter []
    simpa [beforeComment] using this
  have slash : after.head? ≠ some '/' := fun next =>
    absurd (hafter '/' (List.mem_of_mem_head? next)) (by decide)
  calc
    words (beforeComment (trim cs)) = words (beforeComment (trim cs ++ after)) :=
      (words_beforeComment_append (by rwa [code]) fun _ _ => slash).symm
    _ = words (before ++ beforeComment (trim cs ++ after)) := (words_blanks_append hbefore _).symm
    _ = words (beforeComment cs) := by rw [← beforeComment_blanks_append hbefore, ← split]

theorem head?_splitOnP_isPrefix (p : Char → Bool) (cs : Chars) :
    ∀ first ∈ (cs.splitOnP p).head?, first <+: cs := by
  induction cs with
  | nil => simp
  | cons c cs ih =>
    intro first hfirst
    rw [List.splitOnP_cons_eq_if_modifyHead] at hfirst
    split at hfirst
    · cases hfirst
      exact List.nil_prefix
    · obtain ⟨rest, hrest, rfl⟩ : ∃ rest ∈ (cs.splitOnP p).head?, c :: rest = first := by
        simpa [List.head?_modifyHead] using hfirst
      exact List.cons_prefix_cons.mpr ⟨rfl, ih rest hrest⟩

theorem isInfix_of_mem_splitOnP {p : Char → Bool} {cs piece : Chars} (h : piece ∈ cs.splitOnP p) :
    piece <:+: cs := by
  induction cs generalizing piece with
  | nil =>
    rw [List.splitOnP_nil, List.mem_singleton] at h
    exact h ▸ List.infix_refl []
  | cons c cs ih =>
    have first := head?_splitOnP_isPrefix p (c :: cs)
    rw [List.splitOnP_cons_eq_if_modifyHead] at h first
    split at h
    · rcases List.mem_cons.mp h with rfl | h
      · exact List.nil_infix
      · exact (ih h).trans (List.suffix_cons c cs).isInfix
    · obtain ⟨front, rest, split⟩ := List.exists_cons_of_ne_nil (List.splitOnP_ne_nil p cs)
      simp only [List.modifyHead_cons, *] at h first ih
      rcases List.mem_cons.mp h with rfl | h
      · exact (first _ (by simp)).isInfix
      · exact (ih (List.mem_cons_of_mem _ h)).trans (List.suffix_cons c cs).isInfix

theorem Unmarked.of_isInfix {cs ds : Chars} (h : Unmarked cs) (part : ds <:+: cs) : Unmarked ds :=
  ⟨fun semicolon => h.1 (part.subset semicolon), fun slashes => h.2 (slashes.trans part)⟩

theorem unmarked_beforeComment (cs : Chars) : Unmarked (beforeComment cs) := by
  fun_induction beforeComment cs with
  | case1 | case2 | case3 => exact ⟨by simp, by simp⟩
  | case4 c cs semicolon slashes ih =>
    refine unmarked_cons.mpr ⟨semicolon, fun hc next => ?_, ih⟩
    obtain ⟨tail, split⟩ := List.head?_eq_some_iff.mp next
    obtain ⟨rest, whole⟩ := beforeComment_isPrefixOf cs
    exact slashes (tail ++ rest) hc (by rw [← whole, split, List.cons_append])

end RegisterMachine.Text.Chars

namespace RegisterMachine

theorem Text.trim_trim (s : String) : trim (trim s) = trim s := by
  rw [trim, trim, String.toList_ofList, Chars.trim_trim]

def Text.code (comments : Bool) (s : String) : String := if comments then beforeComment s else s

def Text.tokens (comments : Bool) (s : String) : List String := words (code comments s)

theorem Text.tokens_trim (comments : Bool) (s : String) :
    tokens comments (trim s) = tokens comments s := by
  cases comments with
  | false => simp [tokens, code, words, trim, Chars.words_trim]
  | true => simp [tokens, code, words, beforeComment, trim, Chars.words_beforeComment_trim]

theorem Text.tokens_of_blank {comments : Bool} {s : String}
    (blank : ∀ c ∈ (code comments s).toList, isBlank c = true) : tokens comments s = [] := by
  rw [tokens, words, Chars.words_blanks blank, List.map_nil]

theorem Text.isToken_of_mem_tokens {comments : Bool} {s t : String} (h : t ∈ tokens comments s) :
    IsToken comments t := by
  obtain ⟨word, hword, rfl⟩ := List.mem_map.mp h
  have piece := (List.mem_filter.mp hword).1
  refine ⟨(isRegisterName_iff _).mpr ?_, ?_⟩
  · rw [String.toList_ofList]
    exact ⟨Chars.ne_nil_of_mem_words hword, fun c hc => (Chars.of_mem_splitOnP piece c hc).2⟩
  · rintro rfl
    rw [String.toList_ofList]
    apply Chars.Unmarked.of_isInfix _ (Chars.isInfix_of_mem_splitOnP piece)
    rw [code, if_pos rfl, beforeComment, String.toList_ofList]
    exact Chars.unmarked_beforeComment _

namespace Instruction

/-- The instruction that the tokens of a line make up. -/
def ofTokens (line : Int) (text : String) : List String → Option Instruction
  | [] => none
  | opcode :: operands => some { opcode, operands, line, text }

theorem parse_eq (comments : Bool) (line : Int) (s : String) :
    parse comments line s = ofTokens line (Text.trim s) (Text.tokens comments s) := by
  rw [← Text.tokens_trim]
  rfl

theorem parse_trim (comments : Bool) (line : Int) (s : String) :
    parse comments line (Text.trim s) = parse comments line s := by
  rw [parse_eq, parse_eq, Text.trim_trim, Text.tokens_trim]

theorem written_of_parse {comments : Bool} {line : Int} {s : String} {i : Instruction}
    (h : parse comments line s = some i) : i.Written comments := by
  rw [parse_eq] at h
  unfold ofTokens at h
  split at h
  · cases h
  next opcode operands tokens =>
    cases h
    intro t ht
    exact Text.isToken_of_mem_tokens (tokens ▸ ht)

end Instruction
end RegisterMachine
