import Mathlib.Data.List.Forall2
import RegisterMachine.CommandLine.Options

/-! Command lines word by word. A switch that is spelled in full, with an equals sign before its
argument if it takes one, is told from every other word, so for whatever a run of a program can be
given there are words that ask for it. -/
namespace RegisterMachine.CommandLine

theorem splitAtEquals_append {name : String} (plain : '=' ∉ name.toList) (value : String) :
    splitAtEquals (name ++ "=" ++ value) = some (name, value) := by
  have before : ∀ c ∈ name.toList, decide (c ≠ '=') = true := by
    intro c hc
    refine decide_eq_true ?_
    rintro rfl
    exact plain hc
  have text : (name ++ "=" ++ value).toList = name.toList ++ '=' :: value.toList := by simp
  rw [splitAtEquals, text, List.dropWhile_append_of_pos before, List.takeWhile_append_of_pos before]
  simp

namespace Mention

def text (m : Mention) : String :=
  match m.attached with
  | none => m.spelling
  | some value => m.spelling ++ "=" ++ value

structure Full (m : Mention) : Prop where
  spelled : m.spelling ∈ m.switch.spellings
  given : m.attached.isSome = m.switch.takesWord

def setting (m : Mention) : Setting := ⟨m.switch, m.attached.map .ofJoined⟩

theorem mem_all {switch : Switch} {spelling : String} (h : spelling ∈ switch.spellings) :
    ⟨switch, spelling, none⟩ ∈ all :=
  List.mem_flatMap.mpr ⟨switch, switch.mem_all, List.mem_map_of_mem h⟩

theorem spelling_of_mem_all : ∀ m ∈ all, m.spelling.toList.head? = some '-' ∧
    '=' ∉ m.spelling.toList ∧ ofSpelling? m.spelling = some m := by decide +kernel

theorem ofSpelling?_of_equals {text : String} (h : '=' ∈ text.toList) : ofSpelling? text = none := by
  rw [ofSpelling?, List.find?_eq_none]
  intro m hm same
  obtain ⟨_, plain, _⟩ := spelling_of_mem_all m hm
  exact plain (of_decide_eq_true same ▸ h)

section
variable {m : Mention} (full : m.Full)
include full

theorem Full.word : Word.ofString m.text = .ok (.mention m) := by
  obtain ⟨switch, spelling, attached⟩ := m
  obtain ⟨dash, plain, known⟩ := spelling_of_mem_all _ (mem_all full.spelled)
  cases attached with
  | none =>
    simp only [text, Word.ofString, known, dash, ne_eq, not_true, ↓reduceIte]
  | some value =>
    have equals : '=' ∈ (spelling ++ "=" ++ value).toList := by simp
    have dashed : (spelling ++ "=" ++ value).toList.head? = some '-' := by
      rw [String.append_assoc, String.toList_append, List.head?_append, dash]
      rfl
    have long : spelling ++ "=" ++ value ≠ "-" := by
      intro short
      rw [short] at equals
      revert equals
      decide
    have assigned : assigned? (spelling ++ "=" ++ value) =
        some ⟨switch, spelling, some value⟩ := by
      simp only [assigned?, splitAtEquals_append plain, known, bind, Option.bind]
      rfl
    simp only [text, Word.ofString, ofSpelling?_of_equals equals, dashed, long, assigned, ne_eq,
      not_true, ↓reduceIte]

theorem Full.settings : m.settings = .ok [m.setting] := by
  obtain ⟨switch, spelling, attached⟩ := m
  cases attached with
  | none => rfl
  | some value =>
    have takes : switch.takesWord = true := full.given.symm
    simp only [Mention.settings, takes, ↓reduceIte, setting, Option.map_some]

theorem Full.not_wantsWord : m.setting.wantsWord = false := by
  have given := full.given
  cases given' : m.attached <;> simp_all [Setting.wantsWord, setting]

end

end Mention

theorem wordsOfStrings_of_forall {texts : List String} {words : List Word}
    (h : List.Forall₂ (fun text word => Word.ofString text = .ok word) texts words) :
    wordsOfStrings texts = .ok words := by
  induction h with
  | nil => rfl
  | @cons text word texts words told _ ih =>
    have separator : text ≠ "--" := by
      rintro rfl
      have unclear : (Word.ofString "--").toOption = none := by decide +kernel
      rw [told] at unclear
      cases unclear
    rw [wordsOfStrings, if_neg separator, told, ih]
    rfl

theorem readWords_mentions {mentions : List Mention} (full : ∀ m ∈ mentions, m.Full) (o : Options)
    (slot : Slot) : readWords o slot [] (mentions.map .mention) =
      (mentions.map Mention.setting).foldlM Options.set o := by
  induction mentions generalizing o slot with
  | nil => rfl
  | cons m mentions ih =>
    obtain ⟨first, others⟩ := List.forall_mem_cons.mp full
    have complete : [m.setting].find? Setting.wantsWord = none := by
      simp [first.not_wantsWord]
    simp only [List.map_cons, readWords, first.settings, complete, List.foldlM_cons, List.foldlM_nil]
    cases o.set m.setting with
    | error stop => rfl
    | ok next => exact ih others next slot.next

theorem ofStrings_mentions {name : String} (plain : Word.ofString name = .ok (.plain name))
    {mentions : List Mention} (full : ∀ m ∈ mentions, m.Full) :
    Options.ofStrings (name :: mentions.map Mention.text) =
      (mentions.map Mention.setting).foldlM Options.set { program := some name } := by
  have told : List.Forall₂ (fun text word => Word.ofString text = .ok word)
      (name :: mentions.map Mention.text) (.plain name :: mentions.map .mention) := by
    refine .cons plain ?_
    rw [List.forall₂_map_left_iff, List.forall₂_map_right_iff, List.forall₂_same]
    exact fun m hm => (full m hm).word
  rw [Options.ofStrings, wordsOfStrings_of_forall told]
  exact readWords_mentions full _ _

/-- What a run of a program can be given, and nothing that asks for something else than a run. -/
structure Choice where
  registers : Option String := none
  wordBits : Option String := none
  policy : Option Policy := none
  output : Option String := none
  comments : Bool := true
  showRegisters : Bool := false
  verbose : Bool := false

namespace Choice

def options (choice : Choice) (name : String) : Options where
  program := some name
  output := choice.output.map .ofJoined
  registers := choice.registers.map .ofJoined
  wordBits := choice.wordBits.map .ofJoined
  policy := some (choice.policy.getD .skip)
  comments := choice.comments
  showRegisters := choice.showRegisters
  verbose := choice.verbose

def given (choice : Choice) : List Mention :=
  choice.output.toList.map (⟨.output, "--output", some ·⟩) ++
  choice.registers.toList.map (⟨.registers, "--registers", some ·⟩) ++
  choice.wordBits.toList.map (⟨.wordBits, "--word-bits", some ·⟩) ++
  choice.policy.toList.map (⟨.onError, "--on-error", some ·.name⟩)

def flags (choice : Choice) : List Mention :=
  (if choice.comments then [] else [⟨.noComments, "--no-comments", none⟩]) ++
  (if choice.showRegisters then [⟨.showRegisters, "--regs", none⟩] else []) ++
  (if choice.verbose then [⟨.verbose, "--verbose", none⟩] else [])

def words (choice : Choice) (name : String) : List String :=
  name :: (choice.given ++ choice.flags).map Mention.text

theorem full_of_mem_given (choice : Choice) : ∀ m ∈ choice.given, m.Full := by
  intro m hm
  simp only [given, List.mem_append, List.mem_map, Option.mem_toList] at hm
  rcases hm with ((⟨_, _, rfl⟩ | ⟨_, _, rfl⟩) | ⟨_, _, rfl⟩) | ⟨_, _, rfl⟩ <;>
    exact ⟨by simp [Switch.spellings], rfl⟩

theorem full_of_mem_flags (choice : Choice) : ∀ m ∈ choice.flags, m.Full := by
  intro m hm
  simp only [flags, List.mem_append, List.mem_ite_nil_left, List.mem_ite_nil_right,
    List.mem_singleton] at hm
  rcases hm with (⟨_, rfl⟩ | ⟨_, rfl⟩) | ⟨_, rfl⟩ <;> exact ⟨by simp [Switch.spellings], rfl⟩

theorem foldlM_given (choice : Choice) (name : String) :
    (choice.given.map Mention.setting).foldlM Options.set { program := some name } =
      .ok { choice.options name with comments := true, showRegisters := false, verbose := false } := by
  obtain ⟨registers, wordBits, policy, output, comments, showRegisters, verbose⟩ := choice
  cases output <;> cases registers <;> cases wordBits <;> rcases policy with _ | _ | _ <;> rfl

theorem foldlM_flags (choice : Choice) (name : String) :
    (choice.flags.map Mention.setting).foldlM Options.set
        { choice.options name with comments := true, showRegisters := false, verbose := false } =
      .ok (choice.options name) := by
  obtain ⟨registers, wordBits, policy, output, comments, showRegisters, verbose⟩ := choice
  cases comments <;> cases showRegisters <;> cases verbose <;> rfl

theorem ofStrings_words (choice : Choice) {name : String}
    (plain : Word.ofString name = .ok (.plain name)) :
    Options.ofStrings (choice.words name) = .ok (choice.options name) := by
  have full : ∀ m ∈ choice.given ++ choice.flags, m.Full := by
    intro m hm
    exact (List.mem_append.mp hm).elim (choice.full_of_mem_given m) (choice.full_of_mem_flags m)
  rw [words, ofStrings_mentions plain full, List.map_append, List.foldlM_append, foldlM_given]
  exact choice.foldlM_flags name

end Choice

end RegisterMachine.CommandLine
