import RegisterMachine.Proofs.Tokens

/-! Where the tokens of a line stand. They are the maximal runs without blanks before the first
comment marker, in order and each at its place. A comment put after the code of a line changes no
token, unless its slashes follow a slash that ends the code and so begin one place earlier. -/
namespace RegisterMachine.Text.Chars

/-- A run without blanks that begins at a place and that no neighbour makes longer. -/
def RunAt (cs : Chars) (start : Nat) (w : Chars) : Prop :=
  ∃ before after, cs = before ++ (w ++ after) ∧ before.length = start ∧ IsWord w ∧
    (∀ c ∈ before.getLast?, isBlank c = true) ∧ ∀ c ∈ after.head?, isBlank c = true

/-- All runs of a text, in order. -/
structure Runs (cs : Chars) (runs : List (Nat × Chars)) : Prop where
  ordered : runs.Pairwise (·.1 < ·.1)
  mem_iff : ∀ start w, (start, w) ∈ runs ↔ RunAt cs start w

section
variable {front rest w v : Chars} {n : Nat}

theorem runAt_append_right (boundary : (∀ c ∈ front.getLast?, isBlank c = true) ∨
    ∀ c ∈ rest.head?, isBlank c = true) :
    RunAt (front ++ rest) (front.length + n) v ↔ RunAt rest n v := by
  constructor
  · rintro ⟨before, after, split, length, word, last, next⟩
    obtain ⟨inner, rfl⟩ : front <+: before := by
      refine List.prefix_of_prefix_length_le (List.prefix_append front rest) ?_ (by omega)
      rw [split]
      exact List.prefix_append _ _
    rw [List.append_assoc, List.append_cancel_left_eq] at split
    rw [List.length_append, Nat.add_left_cancel_iff] at length
    refine ⟨inner, after, split, length, word, fun c hc => last c ?_, next⟩
    simp [List.getLast?_append, Option.mem_def.mp hc]
  · rintro ⟨inner, after, rfl, rfl, word, last, next⟩
    refine ⟨front ++ inner, after, (List.append_assoc ..).symm, List.length_append, word, ?_, next⟩
    intro c hc
    rw [List.getLast?_append] at hc
    cases inner_last : inner.getLast? with
    | some d => exact last c (by simpa [inner_last] using hc)
    | none =>
      have empty : inner = [] := List.getLast?_eq_none_iff.mp inner_last
      obtain ⟨d, w, rfl⟩ := List.exists_cons_of_ne_nil word.1
      have solid : isBlank d = false := word.2 d (by simp)
      rcases boundary with blank | blank
      · exact blank c (by simpa [inner_last] using hc)
      · have := blank d (by simp [empty])
        rw [solid] at this
        cases this

theorem not_runAt_blank {c : Char} (blank : isBlank c = true) : ¬RunAt (c :: rest) 0 v := by
  rintro ⟨before, after, split, length, word, -⟩
  obtain rfl := List.length_eq_zero_iff.mp length
  obtain ⟨d, w, rfl⟩ := List.exists_cons_of_ne_nil word.1
  have solid : isBlank d = false := word.2 d (by simp)
  rw [← (List.cons.inj split).1, blank] at solid
  cases solid

theorem takeWhile_word (word : IsWord w) (blank : ∀ c ∈ rest.head?, isBlank c = true) :
    (w ++ rest).takeWhile (!isBlank ·) = w := by
  have stops : rest.takeWhile (!isBlank ·) = [] := by
    cases rest with
    | nil => rfl
    | cons c rest => simp [blank c rfl]
  rw [List.takeWhile_append_of_pos fun c hc => by simp [word.2 c hc], stops, List.append_nil]

theorem runAt_word_append (word : IsWord w) (blank : ∀ c ∈ rest.head?, isBlank c = true)
    (inside : n < w.length) : RunAt (w ++ rest) n v ↔ n = 0 ∧ v = w := by
  constructor
  · rintro ⟨before, after, split, rfl, own, last, next⟩
    have part : before <+: w := by
      refine List.prefix_of_prefix_length_le ?_ (List.prefix_append w rest) (by omega)
      rw [split]
      exact List.prefix_append _ _
    have start : before = [] := by
      refine List.getLast?_eq_none_iff.mp (Option.eq_none_iff_forall_ne_some.mpr fun c hc => ?_)
      have solid : isBlank c = false := word.2 c (part.subset (List.mem_of_getLast? hc))
      rw [last c hc] at solid
      cases solid
    subst start
    refine ⟨rfl, ?_⟩
    rw [← takeWhile_word own next, ← takeWhile_word word blank, split, List.nil_append]
  · rintro ⟨rfl, rfl⟩
    exact ⟨[], rest, rfl, rfl, word, by simp, blank⟩

theorem words_word_append (word : IsWord w) (blank : ∀ c ∈ rest.head?, isBlank c = true) :
    words (w ++ rest) = w :: words rest := by
  cases rest with
  | nil => rw [List.append_nil, words_of_isWord word, words_nil]
  | cons c rest =>
    have gap : isBlank c = true := blank c rfl
    rw [words_append_blank _ _ gap, words_of_isWord word, words_cons_blank gap]
    rfl

end

theorem Runs.append {front rest : Chars} {own runs : List (Nat × Chars)} (h : Runs rest runs)
    (boundary : (∀ c ∈ front.getLast?, isBlank c = true) ∨ ∀ c ∈ rest.head?, isBlank c = true)
    (ordered : own.Pairwise (·.1 < ·.1)) (starts : ∀ run ∈ own, run.1 < front.length)
    (own_iff : ∀ n < front.length, ∀ w, (n, w) ∈ own ↔ RunAt (front ++ rest) n w) :
    Runs (front ++ rest) (own ++ runs.map fun run => (front.length + run.1, run.2)) where
  ordered := by
    rw [List.pairwise_append, List.pairwise_map]
    refine ⟨ordered, h.ordered.imp fun less => Nat.add_lt_add_left less _, ?_⟩
    rintro first first_mem second second_mem
    obtain ⟨run, -, rfl⟩ := List.mem_map.mp second_mem
    exact Nat.lt_of_lt_of_le (starts first first_mem) (Nat.le_add_right _ _)
  mem_iff := by
    intro n w
    rw [List.mem_append]
    by_cases inside : n < front.length
    · rw [← own_iff n inside, or_iff_left]
      intro mem
      obtain ⟨run, -, same⟩ := List.mem_map.mp mem
      have : front.length + run.1 = n := congrArg Prod.fst same
      omega
    · obtain ⟨m, rfl⟩ := Nat.exists_eq_add_of_le (Nat.le_of_not_lt inside)
      rw [runAt_append_right boundary, ← h.mem_iff, or_iff_right fun mem => inside (starts _ mem)]
      simp

theorem exists_first_word {c : Char} (solid : isBlank c = false) (cs : Chars) :
    ∃ w rest, c :: cs = w ++ rest ∧ IsWord w ∧ ∀ d ∈ rest.head?, isBlank d = true := by
  refine ⟨(c :: cs).takeWhile (!isBlank ·), (c :: cs).dropWhile (!isBlank ·),
    List.takeWhile_append_dropWhile.symm, ⟨by simp [solid], fun d hd => ?_⟩, fun d hd => ?_⟩
  · simpa using List.all_eq_true.mp List.all_takeWhile d hd
  · have stops := List.head?_dropWhile_not (!isBlank ·) (c :: cs)
    rw [Option.mem_def.mp hd] at stops
    simpa using stops

theorem exists_runs (cs : Chars) : ∃ runs, Runs cs runs ∧ words cs = runs.map Prod.snd := by
  -- On the length: a blank is taken off alone, a word as a whole.
  match cs with
  | [] =>
    refine ⟨[], ⟨.nil, fun start w => iff_of_false (by simp) ?_⟩, rfl⟩
    rintro ⟨before, after, split, -, word, -⟩
    have empty : w = [] := by simp_all
    exact word.1 empty
  | c :: cs =>
    cases head : isBlank c with
    | true =>
      obtain ⟨runs, all, words_eq⟩ := exists_runs cs
      have last : ∀ d ∈ [c].getLast?, isBlank d = true := by simpa using head
      refine ⟨[] ++ runs.map fun run => ([c].length + run.1, run.2), ?_, ?_⟩
      · refine all.append (.inl last) .nil (by simp) fun n inside w => ?_
        obtain rfl : n = 0 := Nat.lt_one_iff.mp inside
        exact iff_of_false (by simp) (not_runAt_blank head)
      · rw [words_cons_blank head, words_eq]
        simp
    | false =>
      obtain ⟨w, rest, split, word, next⟩ := exists_first_word head cs
      have nonempty : 0 < w.length := List.length_pos_iff.mpr word.1
      have shorter : rest.length < (c :: cs).length := by
        rw [split, List.length_append]
        omega
      obtain ⟨runs, all, words_eq⟩ := exists_runs rest
      rw [split]
      refine ⟨[(0, w)] ++ runs.map fun run => (w.length + run.1, run.2), ?_, ?_⟩
      · refine all.append (.inr next) (List.pairwise_singleton ..) (by simpa using nonempty)
          fun n inside v => ?_
        rw [runAt_word_append word next inside]
        simp
      · rw [words_word_append word next, words_eq]
        simp
termination_by cs.length
decreasing_by
  · exact shorter
  · exact Nat.lt_succ_self _

/-- A semicolon, or two slashes, at a place. -/
def MarkerAt (cs : Chars) (i : Nat) : Prop := cs[i]? = some ';' ∨ (cs.drop i).take 2 = ['/', '/']

instance (cs : Chars) (i : Nat) : Decidable (MarkerAt cs i) :=
  inferInstanceAs (Decidable (_ ∨ _))

def codeEnd (comments : Bool) (cs : Chars) : Nat :=
  if comments then ((List.range cs.length).find? fun i => MarkerAt cs i).getD cs.length
  else cs.length

theorem lt_length_of_markerAt {cs : Chars} {i : Nat} (h : MarkerAt cs i) : i < cs.length := by
  refine Nat.lt_of_not_le fun beyond => ?_
  rcases h with semicolon | slashes
  · rw [List.getElem?_eq_none beyond] at semicolon
    cases semicolon
  · rw [List.drop_eq_nil_of_le beyond] at slashes
    cases slashes

theorem unmarked_iff {cs : Chars} : Unmarked cs ↔ ∀ i, ¬MarkerAt cs i := by
  have slashes_iff : ['/', '/'] <:+: cs ↔ ∃ i, (cs.drop i).take 2 = ['/', '/'] := by
    rw [List.infix_iff_prefix_suffix]
    constructor
    · rintro ⟨tail, front, back⟩
      rw [List.suffix_iff_eq_drop.mp back] at front
      exact ⟨_, (List.prefix_iff_eq_take.mp front).symm⟩
    · rintro ⟨i, slashes⟩
      exact ⟨cs.drop i, slashes ▸ List.take_prefix 2 _, List.drop_suffix i cs⟩
  rw [Unmarked, slashes_iff, List.mem_iff_getElem?, ← not_or, ← exists_or, not_exists]
  rfl

theorem beforeComment_eq_take {cs : Chars} {i : Nat} (marker : MarkerAt cs i)
    (first : ∀ j < i, ¬MarkerAt cs j) : beforeComment cs = cs.take i := by
  fun_induction beforeComment cs generalizing i with
  | case1 => rw [List.take_nil]
  | case2 cs =>
    have start : i = 0 := Nat.eq_zero_of_not_pos fun pos => first 0 pos (.inl rfl)
    rw [start, List.take_zero]
  | case3 cs =>
    have start : i = 0 := Nat.eq_zero_of_not_pos fun pos => first 0 pos (.inr rfl)
    rw [start, List.take_zero]
  | case4 c cs semicolon slashes ih =>
    cases i with
    | zero =>
      rcases marker with here | here
      · exact absurd (Option.some.inj here) semicolon
      · obtain ⟨rfl, tail⟩ := List.cons.inj here
        cases cs with
        | nil => cases tail
        | cons d cs => exact absurd (congrArg (· :: cs) (List.cons.inj tail).1) (slashes cs rfl)
    | succ i => 
      have later : MarkerAt cs i := marker
      rw [List.take_succ_cons, ih later fun j less => first (j + 1) (Nat.succ_lt_succ less)]

theorem beforeComment_eq_take_codeEnd (cs : Chars) :
    beforeComment cs = cs.take (codeEnd true cs) := by
  rw [codeEnd, if_pos rfl]
  cases found : (List.range cs.length).find? fun i => MarkerAt cs i with
  | some i =>
    obtain ⟨marker, -, first⟩ := List.find?_range_eq_some.mp found
    exact beforeComment_eq_take (of_decide_eq_true marker) fun j less => by simpa using first j less
  | none =>
    have unmarked : Unmarked cs := unmarked_iff.mpr fun i marker => by
      simpa [marker] using List.find?_range_eq_none.mp found i (lt_length_of_markerAt marker)
    rw [beforeComment_of_unmarked unmarked, Option.getD_none, List.take_length]

theorem flatten_words (cs : Chars) : (words cs).flatten = cs.filter (!isBlank ·) := by
  rw [words, List.flatten_filter_not_isEmpty]
  induction cs with
  | nil => rfl
  | cons c cs ih =>
    rw [List.splitOnP_cons_eq_if_modifyHead]
    cases blank : isBlank c with
    | true => simp [blank, ih]
    | false =>
      obtain ⟨first, rest, split⟩ := List.exists_cons_of_ne_nil (List.splitOnP_ne_nil isBlank cs)
      rw [split] at ih ⊢
      simpa [blank] using ih

section
variable {cs ds : Chars}

theorem beforeComment_append_slashes (unmarked : Unmarked (cs ++ ['/'])) :
    beforeComment (cs ++ ['/'] ++ '/' :: '/' :: ds) = cs := by
  have front : Unmarked cs := unmarked.of_isInfix (List.prefix_append _ _).isInfix
  have apart : cs.getLast? ≠ some '/' := fun last => by
    obtain ⟨before, rfl⟩ := List.getLast?_eq_some_iff.mp last
    exact unmarked.2 ⟨before, [], by simp⟩
  rw [List.append_assoc, List.singleton_append,
    beforeComment_append front fun last => absurd last apart]
  simp [beforeComment]

theorem words_append_slashes_iff : words (beforeComment (cs ++ '/' :: '/' :: ds)) =
    words (beforeComment cs) ↔ ¬(Unmarked cs ∧ cs.getLast? = some '/') := by
  constructor
  · rintro same ⟨unmarked, last⟩
    obtain ⟨front, rfl⟩ := List.getLast?_eq_some_iff.mp last
    rw [beforeComment_append_slashes unmarked, beforeComment_of_unmarked unmarked] at same
    have solid : (words front).flatten.length = (words (front ++ ['/'])).flatten.length := by
      rw [same]
    rw [flatten_words, flatten_words] at solid
    simp [isBlank] at solid
  · intro apart
    exact words_beforeComment_append (by simp [beforeComment]) fun unmarked last =>
      absurd ⟨unmarked, last⟩ apart

end

end RegisterMachine.Text.Chars

namespace RegisterMachine

theorem Text.toList_code (comments : Bool) (s : String) :
    (code comments s).toList = s.toList.take (Chars.codeEnd comments s.toList) := by
  cases comments with
  | false => simp [code, Chars.codeEnd]
  | true =>
    rw [code, if_pos rfl, beforeComment, String.toList_ofList, Chars.beforeComment_eq_take_codeEnd]

theorem Text.tokens_eq_iff {s t : String} : tokens true s = tokens true t ↔
    Chars.words (Chars.beforeComment s.toList) = Chars.words (Chars.beforeComment t.toList) := by
  simp only [tokens, words, code, if_true, beforeComment, String.toList_ofList]
  exact List.map_inj_right fun _ _ => String.ofList_inj.mp

namespace Instruction
open Text

def tokens (i : Instruction) : List String := i.opcode :: i.operands

section
variable (comments : Bool) (line : Int) (s : String)

theorem map_tokens_parse : (parse comments line s).map tokens =
    if Text.tokens comments s = [] then none else some (Text.tokens comments s) := by
  rw [parse_eq]
  cases Text.tokens comments s <;> rfl

theorem parse_eq_none_iff : parse comments line s = none ↔ Text.tokens comments s = [] := by
  rw [parse_eq]
  cases Text.tokens comments s <;> simp [ofTokens]

end

theorem map_tokens_parse_eq_iff {line line' : Int} {s t : String} :
    (parse true line s).map tokens = (parse true line' t).map tokens ↔
      Chars.words (Chars.beforeComment s.toList) = Chars.words (Chars.beforeComment t.toList) := by
  rw [map_tokens_parse, map_tokens_parse, ← Text.tokens_eq_iff]
  grind

/-- Opcode and operands are the runs without blanks before the first comment marker, and there is
no instruction if there is no run. With comments a further comment changes neither, but for one
whose slashes come right after a slash that is no part of a comment. -/
theorem parse_splits_code :
    (∀ comments line s, ∃ runs,
      Chars.Runs (s.toList.take (Chars.codeEnd comments s.toList)) runs ∧
        (parse comments line s).map tokens =
          (if runs = [] then none else some (runs.map fun run => String.ofList run.2)) ∧
        (parse comments line s = none ↔
          ∀ start w, ¬Chars.RunAt (s.toList.take (Chars.codeEnd comments s.toList)) start w)) ∧
    ∀ line line' x c,
      (parse true line (x ++ ";" ++ c)).map tokens = (parse true line' x).map tokens ∧
      (parse true line (x ++ " //" ++ c)).map tokens = (parse true line' x).map tokens ∧
      ((parse true line (x ++ "//" ++ c)).map tokens = (parse true line' x).map tokens ↔
        ¬((∀ i, ¬Chars.MarkerAt x.toList i) ∧ x.toList.getLast? = some '/')) := by
  refine ⟨fun comments line s => ?_, fun line line' x c => ⟨?_, ?_, ?_⟩⟩
  · obtain ⟨runs, all, words_eq⟩ := Chars.exists_runs (Text.code comments s).toList
    have tokens_eq : Text.tokens comments s = runs.map fun run => String.ofList run.2 := by
      rw [Text.tokens, words, words_eq, List.map_map]
      rfl
    rw [Text.toList_code] at all
    refine ⟨runs, all, ?_, ?_⟩
    · rw [map_tokens_parse, tokens_eq]
      simp only [List.map_eq_nil_iff]
    · rw [parse_eq_none_iff, tokens_eq, List.map_eq_nil_iff, List.eq_nil_iff_forall_not_mem,
        Prod.forall]
      simp only [all.mem_iff]
  · rw [map_tokens_parse_eq_iff, String.toList_append, String.toList_append, List.append_assoc]
    exact Chars.words_beforeComment_append (by simp [Chars.beforeComment]) fun _ _ => by simp
  · rw [map_tokens_parse_eq_iff, String.toList_append, String.toList_append, List.append_assoc]
    refine Chars.words_beforeComment_append ?_ fun _ _ => by simp
    simp [Chars.beforeComment, isBlank]
  · rw [map_tokens_parse_eq_iff, String.toList_append, String.toList_append, List.append_assoc,
      ← Chars.unmarked_iff]
    exact Chars.words_append_slashes_iff

-- The first two of three slashes are the marker.
example : (parse true 1 "\tLOAD R1 5///five").map tokens = some ["LOAD", "R1", "5"] := by decide

end Instruction
end RegisterMachine
