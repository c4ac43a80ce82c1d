import RegisterMachine.Proofs.Dialogue

/-! Whole scripts. How often a session runs its buffer, what the buffer holds at each point and
which registers are shown can be read off the lines that were heard, from the last back to the one
that matters. -/
namespace RegisterMachine.Session

def heeded (lines : List String) : List String := lines.takeWhile (¬Quits ·)

/-- A line after which the buffer holds nothing that was in it before. -/
def Renews (line : String) : Prop := Asks .clear line ∨ Asks .sample line

instance (line : String) : Decidable (Renews line) := inferInstanceAs (Decidable (_ ∨ _))

/-- The lines of code since the buffer was last cleared or replaced by the sample, and in the second
case the sample before them. -/
def buffered (lines : List String) : List String :=
  let base := if (lines.rdropWhile (¬Renews ·)).getLast?.any (Asks .sample ·)
    then Program.sampleLines else []
  base ++ ((lines.rtakeWhile (¬Renews ·)).filter (¬IsCommand ·)).map typed

/-- The lines that were heard before the last run, if there was one and no reset since. -/
def lastRun? (lines : List String) : Option (List String) :=
  let heard := lines.rdropWhile fun line => ¬Asks .run line ∧ ¬Asks .reset line
  if heard.getLast?.any (Asks .run ·) then some heard.dropLast else none

theorem heeded_append (lines : List String) :
    heeded lines ++ lines.dropWhile (¬Quits ·) = lines := List.takeWhile_append_dropWhile

theorem stays_of_mem_heeded (lines : List String) : ∀ line ∈ heeded lines, ¬Quits line := by
  intro line hline
  simpa using List.mem_takeWhile_imp hline

theorem quits_of_unheeded {lines more : List String} {line : String}
    (h : lines.dropWhile (¬Quits ·) = line :: more) : Quits line := by
  have := List.head?_dropWhile_not (¬Quits ·) lines
  rw [h] at this
  simpa using this

theorem buffered_concat (lines : List String) (line : String) : buffered (lines ++ [line]) =
    if IsCommand line then
      if Asks .clear line then []
      else if Asks .sample line then Program.sampleLines
      else buffered lines
    else buffered lines ++ [typed line] := by
  unfold buffered
  rw [List.rdropWhile_concat, List.rtakeWhile_concat]
  by_cases clear : Asks .clear line
  · have other : ¬Asks .sample line := fun sample => nomatch clear.unique sample
    simp [Renews, clear, clear.1, other]
  · by_cases sample : Asks .sample line
    · simp [Renews, clear, sample, sample.1]
    · by_cases colon : IsCommand line <;> simp [Renews, clear, sample, colon]

theorem lastRun?_concat (lines : List String) (line : String) : lastRun? (lines ++ [line]) =
    if Asks .run line then some lines
    else if Asks .reset line then none
    else lastRun? lines := by
  unfold lastRun?
  rw [List.rdropWhile_concat]
  by_cases run : Asks .run line
  · simp [run]
  · by_cases reset : Asks .reset line <;> simp [run, reset]

section
variable (c : Config) (prompt : String)

theorem buffer_after (lines : List String) :
    ((ofConfig c prompt).after lines).buffer.toList = buffered lines := by
  induction lines using List.reverseRecOn with
  | nil => rfl
  | append_singleton lines line ih => rw [after_concat, buffer_answer, ih, buffered_concat]

theorem source_after (lines : List String) :
    ((ofConfig c prompt).after lines).source = Text.unlines (buffered lines) := by
  rw [source, buffer_after]

end

section
variable {c : Config} {s : Session}

theorem serves_answer (h : s.machine.Serves c) (line : String) :
    (s.answer line).1.machine.Serves c := by
  rw [machine_answer]
  split
  · exact h.call (.run s.source)
  · split
    · exact h.call .reset
    · exact h

theorem serves_after (h : s.machine.Serves c) (lines : List String) :
    (s.after lines).machine.Serves c := by
  induction lines generalizing s with
  | nil => exact h
  | cons line lines ih => exact ih (serves_answer h line)

theorem answers_of_writable (h : s.machine.Serves c) (writable : c.width.Writable)
    {lines : List String} (stays : ∀ line ∈ lines, ¬Quits line) : s.Answers lines := by
  induction lines generalizing s with
  | nil => trivial
  | cons line lines ih =>
    obtain ⟨first, others⟩ := List.forall_mem_cons.mp stays
    exact ⟨exists_reply (h.exists_report writable s.source) (h.exists_table writable) first,
      ih (serves_answer h line) others⟩

theorem runs_after (h : s.machine.Serves c) (writable : c.width.Writable) (lines : List String) :
    (s.after lines).runs = s.runs + lines.countP (Asks .run ·) := by
  induction lines generalizing s with
  | nil => rfl
  | cons line lines ih =>
    rw [after_cons, ih (serves_answer h line),
      runs_answer (h.exists_report writable s.source) line, List.countP_cons]
    simp only [decide_eq_true_eq]
    omega

end

section
variable (c : Config) (prompt : String)

theorem serves_heard (lines : List String) :
    ((ofConfig c prompt).after lines).machine.Serves c :=
  serves_after (Machine.serves_ofConfig c) lines

theorem registers_after (lines : List String) :
    ((ofConfig c prompt).after lines).machine.registers =
      (lastRun? lines).elim (Registers.ofNames c.names) fun earlier =>
        (((ofConfig c prompt).after earlier).machine.run
          (Text.unlines (buffered earlier))).1.registers := by
  induction lines using List.reverseRecOn with
  | nil => rfl
  | append_singleton lines line ih =>
    rw [after_concat, machine_answer, lastRun?_concat]
    split
    · rw [source_after, Option.elim_some]
    · split
      · rw [Machine.registers_reset, Registers.reset, (serves_heard c prompt lines).names]
        rfl
      · exact ih

end

/-- What is to be said of a session held over some lines. -/
structure Transcript.Tells (c : Config) (prompt : String) (lines : List String) (t : Transcript) :
    Prop where
  outcome : t.outcome = .ok ((heeded lines).countP (Asks .run ·))
  /-- Each line that is heard is read, and then the line that quits or the end of the input. -/
  readings : t.chunks.size = (heeded lines).length + 2
  unread : ∀ line more, lines = heeded lines ++ line :: more →
    t = (ofConfig c prompt).hold (heeded lines ++ [line])
  /-- What the loop is at after some lines, and what it has in its buffer then. -/
  buffer : ∀ front, front <+: heeded lines →
    (∃ chunks pending, chunks.size = front.length ∧ t =
      ((ofConfig c prompt).after front).converse chunks pending none (lines.drop front.length)) ∧
    ((ofConfig c prompt).after front).buffer.toList = buffered front
  run : ∀ front line rest, heeded lines = front ++ line :: rest → Asks .run line →
    ∃ report, c.run (Text.unlines (buffered front)) = .ok report ∧
      t.chunks[front.length + 1]? = some (report.text ++ "\n" ++ prompt)
  registers : ∀ front line rest, heeded lines = front ++ line :: rest → Asks .registers line →
    ∃ (r : Registers) (table : String), r.table = .ok table ∧
      t.chunks[front.length + 1]? = some (table ++ "\n" ++ prompt) ∧
      (lastRun? front = none → r = Registers.ofNames c.names) ∧
      ∀ earlier, lastRun? front = some earlier →
        ∃ report, c.run (Text.unlines (buffered earlier)) = .ok report ∧ r = report.registers

section
variable {c : Config} (writable : c.width.Writable) (prompt : String)
include writable

theorem exists_reached {front : List String} (stays : ∀ line ∈ front, ¬Quits line) :
    ∃ chunks pending, chunks.size = front.length ∧ ∀ lines,
      (ofConfig c prompt).hold (front ++ lines) =
        ((ofConfig c prompt).after front).converse chunks pending none lines := by
  have answers : (ofConfig c prompt).Answers front :=
    answers_of_writable (Machine.serves_ofConfig c) writable stays
  obtain ⟨chunks, pending, size, reached⟩ :=
    answers.converse_append #[] (ofConfig c prompt).greeting none
  exact ⟨chunks, pending, by simpa using size, reached⟩

theorem getElem?_of_reply {front : List String} {line text : String}
    (stays : ∀ line ∈ front, ¬Quits line)
    (told : (((ofConfig c prompt).after front).answer line).2 = .text text) (rest : List String) :
    ((ofConfig c prompt).hold (front ++ line :: rest)).chunks[front.length + 1]? =
      some (text ++ prompt) := by
  obtain ⟨chunks, pending, size, reached⟩ := exists_reached writable prompt stays
  rw [reached, converse_of_text chunks pending none told, ← size, ← Array.size_push,
    getElem?_chunks, prompt_answer, prompt_after]
  rfl

theorem getElem?_heeded {lines front rest : List String} {line text : String}
    (split : heeded lines = front ++ line :: rest)
    (told : (((ofConfig c prompt).after front).answer line).2 = .text text) :
    ((ofConfig c prompt).hold lines).chunks[front.length + 1]? = some (text ++ prompt) := by
  have stays : ∀ line ∈ front, ¬Quits line := fun line hline =>
    stays_of_mem_heeded lines line (by simp [split, hline])
  rw [← heeded_append lines, split, List.append_assoc, List.cons_append]
  exact getElem?_of_reply writable prompt stays told _

theorem exists_ended (lines : List String) :
    ∃ (chunks : Array String) (pending last : String), chunks.size = (heeded lines).length ∧
      (ofConfig c prompt).hold lines =
        ⟨((ofConfig c prompt).after (heeded lines)).close, (chunks.push pending).push last,
          .ok ((ofConfig c prompt).after (heeded lines)).runs⟩ := by
  obtain ⟨chunks, pending, size, reached⟩ :=
    exists_reached writable prompt (stays_of_mem_heeded lines)
  have held := reached (lines.dropWhile (¬Quits ·))
  rw [heeded_append] at held
  cases unheeded : lines.dropWhile (¬Quits ·) with
  | nil =>
    rw [unheeded, converse_nil] at held
    exact ⟨chunks, _, _, size, held⟩
  | cons line more =>
    rw [unheeded, converse_of_quits chunks pending none (quits_of_unheeded unheeded)] at held
    exact ⟨chunks, _, _, size, held⟩

theorem tells_hold (lines : List String) :
    ((ofConfig c prompt).hold lines).Tells c prompt lines where
  outcome := by
    obtain ⟨chunks, pending, last, _, ended⟩ := exists_ended writable prompt lines
    have serves : (ofConfig c prompt).machine.Serves c := Machine.serves_ofConfig c
    rw [ended, runs_after serves writable]
    exact congrArg Except.ok (Nat.zero_add _)
  readings := by
    obtain ⟨chunks, pending, last, size, ended⟩ := exists_ended writable prompt lines
    rw [ended, Array.size_push, Array.size_push, size]
  unread := by
    intro line more split
    have unheeded : lines.dropWhile (¬Quits ·) = line :: more :=
      List.append_cancel_left ((heeded_append lines).trans split)
    have quits := quits_of_unheeded unheeded
    obtain ⟨chunks, pending, _, reached⟩ :=
      exists_reached writable prompt (stays_of_mem_heeded lines)
    calc
      (ofConfig c prompt).hold lines = (ofConfig c prompt).hold (heeded lines ++ line :: more) := by
        rw [← split]
      _ = (ofConfig c prompt).hold (heeded lines ++ [line]) := by
        rw [reached, reached, converse_of_quits chunks pending none quits,
          converse_of_quits chunks pending none quits]
  buffer := by
    intro front initial
    obtain ⟨chunks, pending, size, reached⟩ := exists_reached writable prompt fun line hline =>
      stays_of_mem_heeded lines line (initial.subset hline)
    obtain ⟨rest, split⟩ := initial.trans (List.takeWhile_prefix _)
    refine ⟨⟨chunks, pending, size, ?_⟩, buffer_after c prompt front⟩
    rw [← reached, ← split, List.drop_left]
  run := by
    intro front line rest split asks
    have serves := serves_heard c prompt front
    obtain ⟨report, ran⟩ := serves.exists_report writable (Text.unlines (buffered front))
    refine ⟨report, (serves.run_eq _).symm.trans ran, ?_⟩
    rw [← source_after c prompt] at ran
    rw [getElem?_heeded writable prompt split (reply_of_asks asks (obey_run ran).2),
      ended_singleton]
  registers := by
    intro front line rest split asks
    have serves := serves_heard c prompt front
    obtain ⟨table, shown⟩ := serves.exists_table writable
    have registers := registers_after c prompt front
    refine ⟨_, table, shown, ?_, fun none => ?_, fun earlier last => ?_⟩
    · rw [getElem?_heeded writable prompt split (reply_of_asks asks (obey_registers shown)),
        ended_singleton]
    · rwa [none] at registers
    · have serves := serves_heard c prompt earlier
      obtain ⟨report, ran⟩ := serves.exists_report writable (Text.unlines (buffered earlier))
      rw [last, Option.elim_some, Machine.registers_of_report ran] at registers
      exact ⟨report, (serves.run_eq _).symm.trans ran, registers⟩

end

/-- A session hears the lines of its script up to the first that quits, and no more. It counts its
runs; its buffer holds the lines of code since it was last cleared or replaced; each run tells what
the buffer tells on a new machine; and the registers that are shown are those of the last run, or
zeros where there was none or a reset came after it. -/
theorem script_tells (c : Config) (writable : c.width.Writable) (prompt script : String) :
    ((ofConfig c prompt).hold (Text.readLines script)).Tells c prompt (Text.readLines script) :=
  tells_hold writable prompt (Text.readLines script)

def rehearsal : String :=
  "LOAD R1 5\r\n:regs\n :run twice\n:regs\n:reset\n:regs\n:runs\n\nADD R1 R9\n:run\n" ++
    ":example\nPRINT R3\n:list\n\t:quit \n:run\nLOAD R2 7"

theorem rehearsal_tells : Config.default.width.Writable ∧
    (heeded (Text.readLines rehearsal)).countP (Asks .run ·) = 2 ∧
    buffered (heeded (Text.readLines rehearsal)) = Program.sampleLines ++ ["PRINT R3"] ∧
    ((ofConfig .default).hold (Text.readLines rehearsal)).Tells .default defaultPrompt
      (Text.readLines rehearsal) :=
  ⟨Config.writable_default, by decide +kernel, by decide +kernel,
    script_tells .default Config.writable_default defaultPrompt rehearsal⟩

end RegisterMachine.Session
