import RegisterMachine.Proofs.Entry
import RegisterMachine.Proofs.History
import RegisterMachine.Proofs.NeverStuck

/-! A session line by line. What each line does to the buffer and to the machine is one equation
for each of them, and the loop over lines that are all answered comes to the session after them. -/
namespace RegisterMachine

namespace Machine

/-- What stays true of the machine of a session: it is idle, and it has the configuration, the names
and the range that it was made with. -/
structure Serves (c : Config) (m : Machine) : Prop where
  config : m.config = c
  names : m.registers.names = c.names
  idle : m.running = false
  inRange : m.registers.InRange c.width

theorem serves_ofConfig (c : Config) : (ofConfig c).Serves c :=
  ⟨rfl, names_ofConfig c, rfl, inRange_ofConfig c⟩

theorem registers_of_report {m : Machine} {source : String} {report : Report}
    (h : (m.run source).2 = .ok report) : (m.run source).1.registers = report.registers := by
  obtain ⟨steps, status, idle, walks, rfl⟩ := walks_of_report h
  exact registers_run idle walks

section
variable {c : Config} {m : Machine} (h : m.Serves c)
include h

theorem Serves.call (call : Call) : (m.call call).Serves c where
  config := (config_call m call).trans h.config
  names := (names_call m call).trans h.names
  idle := (running_call m call).trans h.idle
  inRange := by
    have inRange : m.registers.InRange m.config.width := h.config ▸ h.inRange
    rw [← h.config]
    exact inRange_call inRange call

theorem Serves.run_eq (source : String) : (m.run source).2 = c.run source :=
  run_congr h.config (h.names.trans (names_ofConfig c).symm) h.idle rfl source

theorem Serves.exists_report (writable : c.width.Writable) (source : String) :
    ∃ report, (m.run source).2 = .ok report :=
  Machine.exists_report h.idle (h.config ▸ writable) source

theorem Serves.exists_table (writable : c.width.Writable) :
    ∃ table, m.registers.table = .ok table :=
  ⟨_, Registers.table_of_fits (h.names ▸ c.names_ne_nil) fun cell hcell =>
    Width.fits_of_holds writable (h.inRange cell hcell)⟩

end

end Machine

namespace Session
variable {s : Session} {line : String}

section
variable {c : Command}

theorem session_registers (s : Session) : (s.obey .registers).1 = s := by
  simp only [obey]
  split <;> rfl

theorem session_run (s : Session) : ∃ runs, (s.obey .run).1 =
    { s with machine := (s.machine.run s.source).1, runs } := by
  simp only [obey]
  split
  next ran => exact ⟨s.runs + 1, by rw [ran]⟩
  next ran => exact ⟨s.runs, by rw [ran]⟩

theorem obey_run {report : Report} (h : (s.machine.run s.source).2 = .ok report) :
    (s.obey .run).1.runs = s.runs + 1 ∧ (s.obey .run).2 = .ok [report.text] := by
  simp only [obey]
  split
  next ran =>
    rw [ran] at h
    cases h
    exact ⟨rfl, rfl⟩
  next ran =>
    rw [ran] at h
    cases h

theorem obey_registers {table : String} (h : s.machine.registers.table = .ok table) :
    (s.obey .registers).2 = .ok [table] := by
  simp only [obey, h]

theorem buffer_obey (clear : c ≠ .clear) (sample : c ≠ .sample) : (s.obey c).1.buffer = s.buffer := by
  cases c with
  | clear => exact absurd rfl clear
  | sample => exact absurd rfl sample
  | run => obtain ⟨runs, ran⟩ := s.session_run; rw [ran]
  | registers => rw [session_registers]
  | reset | list | help => rfl

theorem machine_obey (run : c ≠ .run) (reset : c ≠ .reset) : (s.obey c).1.machine = s.machine := by
  cases c with
  | run => exact absurd rfl run
  | reset => exact absurd rfl reset
  | registers => rw [session_registers]
  | clear | list | sample | help => rfl

theorem runs_obey (run : c ≠ .run) : (s.obey c).1.runs = s.runs := by
  cases c with
  | run => exact absurd rfl run
  | registers => rw [session_registers]
  | reset | clear | list | sample | help => rfl

@[simp] theorem prompt_obey (s : Session) (c : Command) : (s.obey c).1.prompt = s.prompt := by
  cases c with
  | run => obtain ⟨runs, ran⟩ := s.session_run; rw [ran]
  | registers => rw [session_registers]
  | reset | clear | list | sample | help => rfl

theorem exists_obey (run : ∃ report, (s.machine.run s.source).2 = .ok report)
    (registers : ∃ table, s.machine.registers.table = .ok table) :
    ∃ lines, (s.obey c).2 = .ok lines := by
  cases c with
  | run => exact run.elim fun report h => ⟨_, (obey_run h).2⟩
  | registers => exact registers.elim fun table h => ⟨_, obey_registers h⟩
  | reset | clear | list | sample | help => exact ⟨_, rfl⟩

theorem session_of_asks (h : Asks c line) : (s.answer line).1 = (s.obey c).1 := by
  simp only [answer, Entry.ofLine_of_asks h]
  split <;> simp [*]

theorem reply_of_asks (h : Asks c line) {lines : List String} (told : (s.obey c).2 = .ok lines) :
    (s.answer line).2 = .text (ended lines) := by
  simp only [answer, Entry.ofLine_of_asks h]
  split
  next told' =>
    rw [told'] at told
    cases told
    rfl
  next told' =>
    rw [told'] at told
    cases told

end

theorem ended_singleton (text : String) : ended [text] = text ++ "\n" := by
  simp [ended, String.join]

theorem answer_of_quits (h : Quits line) : s.answer line = (s, .over) := by
  simp only [answer, Entry.ofLine_of_quits h]

theorem answer_of_code (h : ¬IsCommand line) :
    s.answer line = ({ s with buffer := s.buffer.push (typed line) }, .text "") := by
  simp only [answer, Entry.ofLine_of_code h]

theorem answer_cases (s : Session) (line : String) :
    (IsCommand line ∧ (∀ c, ¬Asks c line) ∧ (s.answer line).1 = s) ∨
      (∃ c, Asks c line ∧ (s.answer line).1 = (s.obey c).1) ∨
      (¬IsCommand line ∧ (∀ c, ¬Asks c line) ∧
        (s.answer line).1 = { s with buffer := s.buffer.push (typed line) }) := by
  rcases quits_or_asks_or_unknown_or_code line with quits | ⟨c, asks⟩ | ⟨colon, stays, unasked⟩ | code
  · refine .inl ⟨quits.isCommand, fun c asks => asks.not_quits quits, ?_⟩
    rw [answer_of_quits quits]
  · exact .inr (.inl ⟨c, asks, session_of_asks asks⟩)
  · refine .inl ⟨colon, unasked, ?_⟩
    simp only [answer, Entry.ofLine_of_unknown colon stays unasked]
  · refine .inr (.inr ⟨code, fun c asks => code asks.1, ?_⟩)
    rw [answer_of_code code]

theorem buffer_answer (s : Session) (line : String) : (s.answer line).1.buffer.toList =
    if IsCommand line then
      if Asks .clear line then []
      else if Asks .sample line then Program.sampleLines
      else s.buffer.toList
    else s.buffer.toList ++ [typed line] := by
  rcases answer_cases s line with ⟨colon, unasked, same⟩ | ⟨c, asks, obeyed⟩ | ⟨code, unasked, added⟩
  · rw [same, if_pos colon, if_neg (unasked .clear), if_neg (unasked .sample)]
  · rw [obeyed, if_pos asks.1]
    by_cases clear : c = .clear
    · subst clear
      rw [if_pos asks]
      rfl
    · rw [if_neg fun h => clear (asks.unique h)]
      by_cases sample : c = .sample
      · subst sample
        rw [if_pos asks]
        rfl
      · rw [if_neg fun h => sample (asks.unique h), buffer_obey clear sample]
  · rw [added, if_neg code, Array.toList_push]

theorem machine_answer (s : Session) (line : String) : (s.answer line).1.machine =
    if Asks .run line then (s.machine.run s.source).1
    else if Asks .reset line then s.machine.reset
    else s.machine := by
  rcases answer_cases s line with ⟨colon, unasked, same⟩ | ⟨c, asks, obeyed⟩ | ⟨code, unasked, added⟩
  · rw [same, if_neg (unasked .run), if_neg (unasked .reset)]
  · rw [obeyed]
    by_cases run : c = .run
    · subst run
      obtain ⟨runs, ran⟩ := s.session_run
      rw [if_pos asks, ran]
    · rw [if_neg fun h => run (asks.unique h)]
      by_cases reset : c = .reset
      · subst reset
        rw [if_pos asks]
        rfl
      · rw [if_neg fun h => reset (asks.unique h), machine_obey run reset]
  · rw [added, if_neg (unasked .run), if_neg (unasked .reset)]

@[simp] theorem prompt_answer (s : Session) (line : String) :
    (s.answer line).1.prompt = s.prompt := by
  rcases answer_cases s line with ⟨_, _, same⟩ | ⟨c, _, obeyed⟩ | ⟨_, _, added⟩
  · rw [same]
  · rw [obeyed, prompt_obey]
  · rw [added]

theorem runs_answer (run : ∃ report, (s.machine.run s.source).2 = .ok report) (line : String) :
    (s.answer line).1.runs = s.runs + if Asks .run line then 1 else 0 := by
  rcases answer_cases s line with ⟨_, unasked, same⟩ | ⟨c, asks, obeyed⟩ | ⟨_, unasked, added⟩
  · rw [same, if_neg (unasked .run), Nat.add_zero]
  · rw [obeyed]
    by_cases ran : c = .run
    · subst ran
      obtain ⟨report, h⟩ := run
      rw [if_pos asks, (obey_run h).1]
    · rw [if_neg fun h => ran (asks.unique h), runs_obey ran, Nat.add_zero]
  · rw [added, if_neg (unasked .run), Nat.add_zero]

theorem exists_reply (run : ∃ report, (s.machine.run s.source).2 = .ok report)
    (registers : ∃ table, s.machine.registers.table = .ok table) (stays : ¬Quits line) :
    ∃ text, (s.answer line).2 = .text text := by
  rcases quits_or_asks_or_unknown_or_code line with quits | ⟨c, asks⟩ | ⟨colon, _, unasked⟩ | code
  · exact absurd quits stays
  · obtain ⟨lines, told⟩ := exists_obey run registers
    exact ⟨_, reply_of_asks asks told⟩
  · simp only [answer, Entry.ofLine_of_unknown colon stays unasked]
    exact ⟨_, rfl⟩
  · rw [answer_of_code code]
    exact ⟨_, rfl⟩

def after (s : Session) (lines : List String) : Session :=
  lines.foldl (fun s line => (s.answer line).1) s

@[simp] theorem after_nil (s : Session) : s.after [] = s := rfl

@[simp] theorem after_cons (s : Session) (line : String) (lines : List String) :
    s.after (line :: lines) = (s.answer line).1.after lines := rfl

theorem after_append (s : Session) (front lines : List String) :
    s.after (front ++ lines) = (s.after front).after lines := List.foldl_append

theorem after_concat (s : Session) (lines : List String) (line : String) :
    s.after (lines ++ [line]) = ((s.after lines).answer line).1 := s.after_append lines [line]

@[simp] theorem prompt_after (s : Session) (lines : List String) :
    (s.after lines).prompt = s.prompt := by
  induction lines generalizing s with
  | nil => rfl
  | cons line lines ih => rw [after_cons, ih, prompt_answer]

def Answers (s : Session) : List String → Prop
  | [] => True
  | line :: lines => (∃ text, (s.answer line).2 = .text text) ∧ (s.answer line).1.Answers lines

section
variable (chunks : Array String) (pending : String) (broken : Option Text.Utf8.Fault)

theorem converse_of_text {text : String} (h : (s.answer line).2 = .text text)
    (lines : List String) : s.converse chunks pending broken (line :: lines) =
      (s.answer line).1.converse (chunks.push (pending ++ s.prompt)) text broken lines := by
  rw [converse]
  split
  next told =>
    rw [told] at h ⊢
    cases h
    rfl
  next quit =>
    rw [quit] at h
    cases h
  next off =>
    rw [off] at h
    cases h

theorem converse_of_quits (h : Quits line) (lines : List String) :
    s.converse chunks pending broken (line :: lines) =
      ⟨s.close, (chunks.push (pending ++ s.prompt)).push "", .ok s.runs⟩ := by
  rw [converse, answer_of_quits h]

theorem converse_nil : s.converse chunks pending none [] =
    ⟨s.close, (chunks.push (pending ++ s.prompt)).push "\n", .ok s.runs⟩ := rfl

/-- The loop comes to the session after the lines that are answered. -/
theorem Answers.converse_append {front : List String} (h : s.Answers front) :
    ∃ chunks' pending', chunks'.size = chunks.size + front.length ∧ ∀ lines,
      s.converse chunks pending broken (front ++ lines) =
        (s.after front).converse chunks' pending' broken lines := by
  induction front generalizing s chunks pending with
  | nil => exact ⟨chunks, pending, rfl, fun _ => rfl⟩
  | cons line front ih =>
    obtain ⟨⟨text, told⟩, rest⟩ := h
    obtain ⟨chunks', pending', size, reached⟩ := ih (chunks.push (pending ++ s.prompt)) text rest
    refine ⟨chunks', pending', ?_, fun lines => ?_⟩
    · rw [size, Array.size_push, List.length_cons]
      omega
    · rw [List.cons_append, converse_of_text chunks pending broken told, reached, after_cons]

end

theorem chunks_isPrefix (s : Session) (chunks : Array String) (pending : String)
    (broken : Option Text.Utf8.Fault) (lines : List String) :
    chunks.toList ++ [pending ++ s.prompt] <+:
      (s.converse chunks pending broken lines).chunks.toList := by
  induction lines generalizing s chunks pending with
  | nil =>
    unfold converse
    cases broken with
    | none => exact ⟨["\n"], by simp⟩
    | some fault => exact ⟨[""], by simp⟩
  | cons line lines ih =>
    unfold converse
    split
    next s' text _ =>
      refine List.IsPrefix.trans ?_ (ih s' _ text)
      rw [Array.toList_push]
      exact List.prefix_append _ _
    · exact ⟨[""], by simp⟩
    · exact ⟨[""], by simp⟩

theorem getElem?_chunks (s : Session) (chunks : Array String) (pending : String)
    (broken : Option Text.Utf8.Fault) (lines : List String) :
    (s.converse chunks pending broken lines).chunks[chunks.size]? = some (pending ++ s.prompt) := by
  obtain ⟨rest, split⟩ := s.chunks_isPrefix chunks pending broken lines
  rw [← Array.getElem?_toList, ← split, List.append_assoc, List.getElem?_append_right (by simp)]
  simp

end Session
end RegisterMachine
