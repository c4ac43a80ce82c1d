import RegisterMachine.Proofs.Order
import RegisterMachine.Proofs.Script
import RegisterMachine.Proofs.Typing

/-! Line numbers in a session. A run numbers the lines of the buffer after its entries are cut at
their carriage returns, the listing numbers the entries themselves. So the number of a failure is
that of an entry as long as nothing was cut before it. -/
namespace RegisterMachine

namespace Text

theorem lines_unlines_flatMap {entries : List String} (nonempty : entries ≠ [])
    (whole : ∀ s ∈ entries, s.toList.getLast? ≠ some '\r') :
    lines (unlines entries) = entries.flatMap lines := by
  induction entries with
  | nil => exact absurd rfl nonempty
  | cons first rest ih =>
    obtain ⟨ended, others⟩ := List.forall_mem_cons.mp whole
    cases rest with
    | nil => simp [unlines]
    | cons next rest =>
      have fed : (unlines (first :: next :: rest)).toList =
          first.toList ++ (LineEnd.feed.chars ++ (unlines (next :: rest)).toList) := by
        simp only [unlines, String.toList_intercalate, List.map_cons]
        exact Chars.fed_cons_cons _ _ _
      rw [List.flatMap_cons, ← ih (by simp) others]
      simp only [lines, fed, LineEnd.lines_append (LineEnd.between_feed ended), List.map_append]

theorem not_mem_readLines {source s : String} (h : s ∈ readLines source) : '\n' ∉ s.toList := by
  have piece : s.toList ∈ source.toList.splitOn '\n' := by
    unfold readLines fedLines Chars.fedLines at h
    have fed : s ∈ (source.toList.splitOn '\n').dropLast.map String.ofList →
        s.toList ∈ source.toList.splitOn '\n' := by
      intro mem
      obtain ⟨cs, hcs, rfl⟩ := List.mem_map.mp mem
      rw [String.toList_ofList]
      exact List.dropLast_subset _ hcs
    simp only at h
    split at h
    · exact fed h
    · rcases List.mem_append.mp h with mem | mem
      · exact fed mem
      · rw [List.mem_singleton.mp mem, Chars.unfedRest, String.toList_ofList,
          List.getLast?_eq_some_getLast (List.splitOn_ne_nil _ _), Option.getD_some]
        exact List.getLast_mem _
  intro feed
  have := (Chars.of_mem_splitOnP piece '\n' feed).2
  simp at this

end Text

theorem exists_of_getElem?_flatMap {entries : List String} {f : String → List String} {k : Nat}
    (nonempty : ∀ s, f s ≠ []) (uncut : ∀ s ∈ entries.take k, f s = [s]) {piece : String}
    (h : (entries.flatMap f)[k]? = some piece) :
    ∃ entry rest, entries[k]? = some entry ∧ f entry = piece :: rest := by
  induction entries generalizing k with
  | nil => simp at h
  | cons first entries ih =>
    cases k with
    | zero =>
      obtain ⟨head, rest, cut⟩ := List.exists_cons_of_ne_nil (nonempty first)
      rw [List.flatMap_cons, cut] at h
      cases h
      exact ⟨first, rest, rfl, cut⟩
    | succ k =>
      have one : f first = [first] := uncut first (by simp)
      rw [List.flatMap_cons, one, List.singleton_append, List.getElem?_cons_succ] at h
      exact ih (fun s hs => uncut s (by simp [hs])) h

namespace Session

theorem getElem?_numbered (number k : Nat) (lines : List String) :
    (numbered number lines)[k]? =
      lines[k]?.map fun line => Text.alignRight 3 (number + k).repr ++ "  " ++ line := by
  induction lines generalizing number k with
  | nil => simp [numbered]
  | cons line lines ih =>
    cases k with
    | zero => simp [numbered]
    | succ k =>
      rw [numbered, List.getElem?_cons_succ, ih, List.getElem?_cons_succ]
      simp only [Nat.add_assoc, Nat.add_comm 1 k]

theorem getElem?_listing {s : Session} {k : Nat} {entry : String} (h : s.buffer[k]? = some entry) :
    s.listing[k]? = some (Text.alignRight 3 (k + 1).repr ++ "  " ++ entry) := by
  have filled : s.buffer.isEmpty = false := by
    rw [Array.isEmpty_eq_false_iff]
    rintro empty
    simp [empty] at h
  rw [← Array.getElem?_toList] at h
  simp only [listing, filled, Bool.false_eq_true, ↓reduceIte, getElem?_numbered, h, Option.map_some,
    Nat.add_comm 1 k]

/-- What is kept of a line in the buffer: no line feed, and no carriage return at its end. -/
structure IsEntry (entry : String) : Prop where
  unfed : '\n' ∉ entry.toList
  whole : entry.toList.getLast? ≠ some '\r'

theorem isEntry_typed {line : String} (unfed : '\n' ∉ line.toList) : IsEntry (typed line) where
  unfed := by
    rw [toList_typed]
    exact fun feed => unfed ((List.rdropWhile_prefix _ _).subset feed)
  whole := by
    rw [toList_typed]
    exact Text.Chars.getLast?_dropEnds _

theorem isEntry_of_mem_sampleLines : ∀ entry ∈ Program.sampleLines, IsEntry entry := by
  have plain : ∀ entry ∈ Program.sampleLines,
      '\n' ∉ entry.toList ∧ entry.toList.getLast? ≠ some '\r' := by decide +kernel
  exact fun entry mem => ⟨(plain entry mem).1, (plain entry mem).2⟩

theorem isEntry_of_mem_buffered {lines : List String} (unfed : ∀ line ∈ lines, '\n' ∉ line.toList) :
    ∀ entry ∈ buffered lines, IsEntry entry := by
  intro entry mem
  rcases List.mem_append.mp mem with base | added
  · split at base
    · exact isEntry_of_mem_sampleLines entry base
    · cases base
  · obtain ⟨line, hline, rfl⟩ := List.mem_map.mp added
    have recent := (List.mem_filter.mp hline).1
    exact isEntry_typed (unfed line ((List.rtakeWhile_suffix _ _).subset recent))

/-- How the line numbers of a report point into what a session lists. -/
structure PointsInto (s : Session) (r : Report) : Prop where
  told : ∀ f ∈ r.failures,
    "Error on line " ++ Numeral.text f.line ++ ": " ++ f.reason ∈ r.lines
  stopped : r.aborted = true → ∃ f, r.failures = [f] ∧
    r.lines.getLast? = some ("Execution aborted on line " ++ Numeral.text f.line ++ ".")
  /-- The lines that are numbered are those of the entries, each cut at its carriage returns. -/
  placed : ∀ f ∈ r.failures, ∃ (k : Nat) (piece : String), f.line = k + 1 ∧
    (s.buffer.toList.flatMap Text.lines)[k]? = some piece ∧ Text.trim piece = f.text
  /-- Where no entry before is cut, the number is the one that is listed beside the entry. -/
  listed : ∀ f ∈ r.failures, ∀ k : Nat, f.line = k + 1 →
    (∀ entry ∈ s.buffer.toList.take k, '\r' ∉ entry.toList) →
    ∃ entry, f.line ≤ s.buffer.size ∧ s.buffer[k]? = some entry ∧
      s.listing[k]? = some (Text.alignRight 3 (Numeral.text f.line) ++ "  " ++ entry) ∧
      (∃ piece rest, Text.lines entry = piece :: rest ∧ Text.trim piece = f.text) ∧
      ('\r' ∉ entry.toList → Text.trim entry = f.text)

theorem exists_placed {s : Session} (entries : ∀ entry ∈ s.buffer.toList, IsEntry entry)
    {steps : List Step} {status : Status} (walks : s.machine.Walks s.source steps (.finished status))
    {f : LineFault} (hf : f ∈ steps.filterMap Step.failure?) :
    ∃ (k : Nat) (piece : String), f.line = k + 1 ∧
      (s.buffer.toList.flatMap Text.lines)[k]? = some piece ∧ Text.trim piece = f.text := by
  obtain ⟨step, hstep, failure⟩ := List.mem_filterMap.mp hf
  obtain ⟨line, text, _⟩ := walks.placed step hstep f failure
  obtain ⟨k, piece, number, at_, trimmed⟩ := walks.follows.texts step hstep
  refine ⟨k, piece, line.trans number, ?_, trimmed.trans text.symm⟩
  -- an empty buffer is the one empty line, which has no code
  have nonempty : s.buffer.toList ≠ [] := by
    intro empty
    have coded := walks.instructions_isPrefix.subset (List.mem_map_of_mem hstep)
    obtain ⟨j, blank, here, parse⟩ := Program.mem_parseLines_iff.mp coded
    have only : blank = "" := by
      rw [source, empty] at here
      exact List.mem_singleton.mp (List.mem_of_getElem? here)
    rw [only, Instruction.parse_eq] at parse
    cases commented : s.machine.config.comments <;> rw [commented] at parse <;> cases parse
  rwa [source, Text.lines_unlines_flatMap nonempty fun entry mem => (entries entry mem).whole]
    at at_

theorem pointsInto_of_walks {s : Session} (entries : ∀ entry ∈ s.buffer.toList, IsEntry entry)
    {steps : List Step} {status : Status}
    (walks : s.machine.Walks s.source steps (.finished status)) :
    s.PointsInto (Report.ofSteps s.machine.registers.reset steps status) where
  told := by
    intro f hf
    obtain ⟨step, hstep, failure⟩ := List.mem_filterMap.mp hf
    obtain ⟨line, _, _, report⟩ := walks.placed step hstep f failure
    rw [walks.agrees.lines, line, ← report]
    simp only [List.mem_cons, List.mem_append, List.mem_flatMap]
    exact .inl (.inr ⟨step, hstep, by simp⟩)
  stopped := by
    intro aborted
    obtain ⟨init, last, f, _, _, only, text⟩ := walks.agrees.stopped aborted
    exact ⟨f, only, text ▸ walks.agrees.last⟩
  placed := fun f hf => exists_placed entries walks hf
  listed := by
    intro f hf k number uncut
    obtain ⟨k', piece, number', at_, trimmed⟩ := exists_placed entries walks hf
    obtain rfl : k' = k := by omega
    have cut (entry : String) (mem : entry ∈ s.buffer.toList) (plain : '\r' ∉ entry.toList) :
        Text.lines entry = [entry] :=
      Text.lines_of_isLine ⟨(entries entry mem).unfed, plain⟩
    obtain ⟨entry, rest, here, first⟩ :=
      exists_of_getElem?_flatMap (fun entry => by simp [Text.lines, Text.Chars.lines_ne_nil])
        (fun entry mem => cut entry (List.mem_of_mem_take mem) (uncut entry mem)) at_
    have inside : k' < s.buffer.toList.length := (List.getElem?_eq_some_iff.mp here).1
    have mem := List.mem_of_getElem? here
    rw [Array.getElem?_toList] at here
    refine ⟨entry, ?_, here, ?_, ⟨piece, rest, first, trimmed⟩, fun plain => ?_⟩
    · rw [Array.length_toList] at inside
      omega
    · have numeral : Numeral.text f.line = (k' + 1).repr := by
        rw [number, Numeral.text, if_neg (by omega)]
        rfl
      rw [getElem?_listing here, numeral]
    · rw [cut entry mem plain] at first
      rwa [(List.cons.inj first).1]

/-- The failures that a run tells of in a session point at the entries of its buffer: by their
number among the lines that the entries are cut into, and by the number that the listing shows
wherever no entry before is cut. -/
theorem failures_point_into_listing (c : Config) (prompt script : String)
    (front rest : List String) (line : String) (report : Report)
    (heard : heeded (Text.readLines script) = front ++ line :: rest) (asks : Asks .run line)
    (ran : (((ofConfig c prompt).after front).machine.run
      ((ofConfig c prompt).after front).source).2 = .ok report) :
    (((ofConfig c prompt).after front).answer line).2 = .text (report.text ++ "\n") ∧
      ((ofConfig c prompt).after front).PointsInto report := by
  have unfed : ∀ line ∈ front, '\n' ∉ line.toList := by
    intro line mem
    have read : line ∈ Text.readLines script :=
      (List.takeWhile_prefix _).subset (heard ▸ List.mem_append_left _ mem)
    exact Text.not_mem_readLines read
  have entries : ∀ entry ∈ ((ofConfig c prompt).after front).buffer.toList, IsEntry entry := by
    rw [buffer_after]
    exact isEntry_of_mem_buffered unfed
  refine ⟨?_, ?_⟩
  · rw [reply_of_asks asks (obey_run ran).2, ended_singleton]
  · obtain ⟨steps, status, _, walks, rfl⟩ := Machine.walks_of_report ran
    exact pointsInto_of_walks entries walks

def cutEntry : String := "LOAD R1 5\r\n  ADD R1 R9 \nPRINT R1\rPRINT R7\n:run\n"

theorem failures_of_cutEntry :
    heeded (Text.readLines cutEntry) =
      ["LOAD R1 5\r", "  ADD R1 R9 ", "PRINT R1\rPRINT R7"] ++ ":run" :: [] ∧
    Asks .run ":run" ∧
    let s := (ofConfig .default).after ["LOAD R1 5\r", "  ADD R1 R9 ", "PRINT R1\rPRINT R7"]
    ∃ report, (s.machine.run s.source).2 = .ok report ∧
      report.failures.map LineFault.line = [2, 4] ∧
      (s.answer ":run").2 = .text (report.text ++ "\n") ∧ s.PointsInto report := by
  have heard : heeded (Text.readLines cutEntry) =
      ["LOAD R1 5\r", "  ADD R1 R9 ", "PRINT R1\rPRINT R7"] ++ ":run" :: [] := by decide +kernel
  have asks : Asks .run ":run" := by decide +kernel
  refine ⟨heard, asks, ?_⟩
  intro s
  have evaluated : (s.machine.run s.source).2.toOption.map
      (·.failures.map LineFault.line) = some [2, 4] := by decide +kernel
  obtain ⟨report, ran, lines⟩ := exists_ok_of_map evaluated
  obtain ⟨answered, points⟩ := failures_point_into_listing .default defaultPrompt cutEntry
    _ [] ":run" report heard asks ran
  exact ⟨report, ran, lines, answered, points⟩

/-- A carriage return within an entry is a line end to the run alone: the buffer has one entry, and
the run fails on its second line. -/
theorem loneReturn_outruns_listing :
    heeded (Text.readLines "LOAD R1 5\rADD R1 R9\n:run\n") = ["LOAD R1 5\rADD R1 R9", ":run"] ∧
    let s := (ofConfig .default).after ["LOAD R1 5\rADD R1 R9"]
    s.listing = ["  1  LOAD R1 5\rADD R1 R9"] ∧
    ∃ report f, (s.machine.run s.source).2 = .ok report ∧ f ∈ report.failures ∧
      ¬f.line ≤ s.buffer.size := by
  refine ⟨by decide +kernel, ?_⟩
  intro s
  have listed : s.listing = ["  1  LOAD R1 5\rADD R1 R9"] := by decide +kernel
  have size : s.buffer.size = 1 := by decide +kernel
  have evaluated : (s.machine.run s.source).2.toOption.map
      (·.failures.map LineFault.line) = some [2] := by decide +kernel
  obtain ⟨report, ran, lines⟩ := exists_ok_of_map evaluated
  obtain ⟨f, only, second⟩ := List.map_eq_singleton_iff.mp lines
  refine ⟨listed, report, f, ran, by simp [only], ?_⟩
  rw [second, size]
  decide

end Session
end RegisterMachine
