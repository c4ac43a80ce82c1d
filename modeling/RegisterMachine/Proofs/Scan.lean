import RegisterMachine.Proofs.LineEnds

/-! Lines as one scan. Going through a text once from the left, and ending a line at each line end
as it comes, gives the lines that replacing the line ends first and splitting afterwards gives. So
lines can be put together with any line ends and are told apart again, unless a carriage return and
a line feed that ended two of them now end one. -/
namespace RegisterMachine.Text

namespace Chars

/-- One scan from the left, with the line so far. -/
def scan (line : Chars) : Chars → List Chars
  | [] => [line]
  | '\r' :: '\n' :: cs => line :: scan [] cs
  | '\r' :: cs => line :: scan [] cs
  | '\n' :: cs => line :: scan [] cs
  | c :: cs => scan (line ++ [c]) cs

def feedPairs : Chars → Chars
  | [] => []
  | '\r' :: '\n' :: cs => '\n' :: feedPairs cs
  | c :: cs => c :: feedPairs cs

def feedReturns (cs : Chars) : Chars := cs.map fun c => if c = '\r' then '\n' else c

theorem feedReturns_feedPairs (cs : Chars) : feedReturns (feedPairs cs) = unifyEnds cs := by
  fun_induction unifyEnds cs with
  | case1 => rfl
  | case2 cs ih => rw [feedPairs, ← ih]; rfl
  | case3 cs alone ih =>
    rw [feedPairs.eq_3 _ _ fun tail _ => alone tail, ← ih]
    rfl
  | case4 c cs _ other ih =>
    rw [feedPairs.eq_3 _ _ fun _ ret _ => other ret, ← ih]
    simp only [feedReturns, List.map_cons, if_neg other]

theorem lines_cons {c : Char} (ret : c ≠ '\r') (feed : c ≠ '\n') (cs : Chars) :
    lines (c :: cs) = (lines cs).modifyHead (c :: ·) := by
  rw [lines, unifyEnds.eq_4 c cs (fun _ h _ => ret h) ret, List.splitOn,
    List.splitOnP_cons_eq_if_modifyHead, if_neg (by simpa using feed)]
  rfl

theorem lines_ended {e : LineEnd} {cs : Chars} (between : e.Between [] cs) :
    lines (e.chars ++ cs) = [] :: lines cs := LineEnd.lines_append between

theorem modifyHead_nil_append (pieces : List Chars) : pieces.modifyHead ([] ++ ·) = pieces := by
  cases pieces <;> rfl

theorem scan_eq (line cs : Chars) : scan line cs = (lines cs).modifyHead (line ++ ·) := by
  fun_induction scan line cs with
  | case1 line => simp
  | case2 line cs ih =>
    have ended : lines ('\r' :: '\n' :: cs) = [] :: lines cs :=
      lines_ended (e := .both) LineEnd.between_both
    rw [ended, List.modifyHead_cons, List.append_nil, ih, modifyHead_nil_append]
  | case3 line cs alone ih =>
    have next : cs.head? ≠ some '\n' := fun feed => by
      obtain ⟨tail, rfl⟩ := List.head?_eq_some_iff.mp feed
      exact alone tail rfl
    have ended : lines ('\r' :: cs) = [] :: lines cs :=
      lines_ended (e := .ret) (LineEnd.between_ret next)
    rw [ended, List.modifyHead_cons, List.append_nil, ih, modifyHead_nil_append]
  | case4 line cs ih =>
    have ended : lines ('\n' :: cs) = [] :: lines cs :=
      lines_ended (e := .feed) (LineEnd.between_feed (by simp))
    rw [ended, List.modifyHead_cons, List.append_nil, ih, modifyHead_nil_append]
  | case5 line c cs _ ret feed ih =>
    rw [ih, lines_cons ret feed, List.modifyHead_modifyHead]
    simp [Function.comp_def]

theorem lines_met {cs ds : Chars} : lines (cs ++ '\r' :: '\n' :: ds) = lines cs ++ lines ds :=
  LineEnd.lines_append LineEnd.between_both

end Chars

def scan (s : String) : List String := (Chars.scan [] s.toList).map String.ofList

def LineEnd.text (e : LineEnd) : String := String.ofList e.chars

/-- Lines with their ends, and a last one without. -/
def ended : List (String × LineEnd) → String → String
  | [], last => last
  | (line, e) :: rest, last => line ++ e.text ++ ended rest last

/-- A line that ends in a carriage return, and then an empty one that ends in a line feed. -/
def Met (pieces : List (String × LineEnd)) : Prop :=
  ∃ line, [(line, .ret), ("", .feed)] <:+: pieces

theorem scan_eq_lines (s : String) : scan s = lines s := by
  rw [scan, Chars.scan_eq, Chars.modifyHead_nil_append, lines]

theorem lines_fed_iff (p q : String) :
    lines (p ++ "\n" ++ q) = lines p ++ lines q ↔ p.toList.getLast? ≠ some '\r' := by
  have whole : (p ++ "\n" ++ q).toList = p.toList ++ '\n' :: q.toList := by simp
  rw [lines, whole]
  constructor
  · intro split last
    obtain ⟨cs, ret⟩ := List.getLast?_eq_some_iff.mp last
    have met : Chars.lines (p.toList ++ '\n' :: q.toList) =
        Chars.lines cs ++ Chars.lines q.toList := by
      rw [ret, List.append_assoc]
      exact Chars.lines_met
    have first : Chars.lines p.toList = Chars.lines cs ++ [[]] := by
      rw [ret]
      exact Chars.lines_append_returns cs 1
    have lengths := congrArg List.length split
    rw [met, lines, lines, first] at lengths
    simp at lengths
  · intro last
    have fed : Chars.lines (p.toList ++ '\n' :: q.toList) =
        Chars.lines p.toList ++ Chars.lines q.toList :=
      LineEnd.lines_append (LineEnd.between_feed last)
    rw [fed, List.map_append, lines, lines]

theorem lines_ne_nil (s : String) : lines s ≠ [] := by simp [lines, Chars.lines_ne_nil]

theorem lines_unlines_lines (s : String) : lines (unlines (lines s)) = lines s :=
  lines_unlines (fun _ mem => isLine_of_mem_lines mem) (lines_ne_nil s)

theorem not_met_nil : ¬Met [] := by simp [Met]

section
variable {line : String} {e : LineEnd} {rest : List (String × LineEnd)} {last : String}

theorem met_cons : Met ((line, e) :: rest) ↔
    (e = .ret ∧ rest.head? = some ("", .feed)) ∨ Met rest := by
  simp only [Met, List.infix_cons_iff, List.cons_prefix_cons, exists_or, Prod.mk.injEq]
  cases rest with
  | nil => simp
  | cons next rest => simp [and_comm, eq_comm]

theorem toList_ended_cons : (ended ((line, e) :: rest) last).toList =
    line.toList ++ (e.chars ++ (ended rest last).toList) := by
  simp [ended, LineEnd.text]

/-- What follows begins with a line feed only where an empty line ends in one. -/
theorem head?_ended (plain : ∀ piece ∈ rest.map Prod.fst ++ [last], IsLine piece) :
    (ended rest last).toList.head? = some '\n' ↔ rest.head? = some ("", .feed) := by
  cases rest with
  | nil =>
    have feed : '\n' ∉ last.toList := (plain last (by simp)).1
    have head : last.toList.head? ≠ some '\n' := fun h => feed (List.mem_of_mem_head? h)
    simp [ended, head]
  | cons next rest =>
    obtain ⟨line, e⟩ := next
    have feed : '\n' ∉ line.toList := (plain line (by simp)).1
    rw [toList_ended_cons, List.head?_cons, Option.some_inj, Prod.mk.injEq]
    cases chars : line.toList with
    | nil =>
      have empty : line = "" := by rw [← String.ofList_toList (s := line), chars]
      cases e <;> simp [LineEnd.chars, empty]
    | cons c cs =>
      have other : c ≠ '\n' := fun h => feed (by simp [chars, h])
      have nonempty : line ≠ "" := fun h => by simp [h] at chars
      simp [other, nonempty]

theorem apart_ended_iff (plain : ∀ piece ∈ rest.map Prod.fst ++ [last], IsLine piece) :
    Chars.Apart e.chars (ended rest last).toList ↔ ¬(e = .ret ∧ rest.head? = some ("", .feed)) := by
  rw [Chars.Apart, Ne, head?_ended plain, not_and]
  cases e <;> simp [LineEnd.chars]

theorem lines_ended_cons (plain : IsLine line)
    (apart : Chars.Apart e.chars (ended rest last).toList) :
    lines (ended ((line, e) :: rest) last) = line :: lines (ended rest last) := by
  have between : e.Between line.toList (ended rest last).toList :=
    ⟨fun ret => absurd (List.mem_of_getLast? ret) plain.2, apart⟩
  have own : lines line = [line] := lines_of_isLine plain
  rw [lines, toList_ended_cons, LineEnd.lines_append between, List.map_append, ← lines, ← lines,
    own]
  rfl

theorem lines_ended_met (plain : IsLine line) :
    lines (ended ((line, .ret) :: ("", .feed) :: rest) last) =
      line :: (lines (ended (("", .feed) :: rest) last)).tail := by
  have own : lines line = [line] := lines_of_isLine plain
  have empty : lines (ended (("", .feed) :: rest) last) = "" :: lines (ended rest last) :=
    lines_ended_cons (by simp [IsLine]) fun ret => absurd ret (by decide)
  have chars : (ended ((line, .ret) :: ("", .feed) :: rest) last).toList =
      line.toList ++ '\r' :: '\n' :: (ended rest last).toList := by
    simp [toList_ended_cons, LineEnd.chars]
  rw [empty, List.tail_cons, lines, chars, Chars.lines_met, List.map_append, ← lines, ← lines, own]
  rfl

end

section
variable {pieces : List (String × LineEnd)} {last : String}
  (plain : ∀ piece ∈ pieces.map Prod.fst ++ [last], IsLine piece)
include plain

theorem length_lines_ended : (lines (ended pieces last)).length ≤ pieces.length + 1 := by
  induction pieces with
  | nil =>
    rw [ended, lines_of_isLine (plain last (by simp))]
    simp
  | cons piece rest ih =>
    obtain ⟨line, e⟩ := piece
    obtain ⟨first, others⟩ := List.forall_mem_cons.mp plain
    have shorter := ih others
    by_cases met : e = .ret ∧ rest.head? = some ("", .feed)
    · obtain ⟨rfl, next⟩ := met
      obtain ⟨after, rfl⟩ := List.head?_eq_some_iff.mp next
      rw [lines_ended_met first, List.length_cons, List.length_tail, List.length_cons]
      omega
    · rw [lines_ended_cons first ((apart_ended_iff others).mpr met), List.length_cons,
        List.length_cons]
      omega

/-- Joined lines are told apart again unless two line ends meet. -/
theorem lines_ended_iff :
    lines (ended pieces last) = pieces.map Prod.fst ++ [last] ↔ ¬Met pieces := by
  induction pieces with
  | nil => simp [ended, lines_of_isLine (plain last (by simp)), not_met_nil]
  | cons piece rest ih =>
    obtain ⟨line, e⟩ := piece
    obtain ⟨first, others⟩ := List.forall_mem_cons.mp plain
    by_cases met : e = .ret ∧ rest.head? = some ("", .feed)
    · -- A line is lost here, and nothing that follows makes up for it.
      refine iff_of_false (fun all => ?_) fun apart => apart (met_cons.mpr (.inl met))
      have lengths := congrArg List.length all
      have shorter := length_lines_ended others
      obtain ⟨rfl, next⟩ := met
      obtain ⟨after, rfl⟩ := List.head?_eq_some_iff.mp next
      rw [lines_ended_met first] at lengths
      simp only [List.length_cons, List.length_tail, List.length_append, List.length_map,
        List.length_nil] at lengths shorter
      omega
    · rw [lines_ended_cons first ((apart_ended_iff others).mpr met), met_cons, or_iff_right met,
        ← ih others, List.map_cons, List.cons_append, List.cons.injEq, and_iff_right rfl]

end

/-- Lines are what the two replacements and the split after them give, and what one scan gives.
There is at least one, the last, which no line end follows. Joining them again changes nothing, and
other lines come back from any line ends unless a carriage return meets a line feed. -/
theorem lines_are_scanned :
    (∀ s, lines s =
          ((Chars.feedReturns (Chars.feedPairs s.toList)).splitOn '\n').map String.ofList ∧
        lines s = scan s ∧ lines s ≠ [] ∧ (∀ line ∈ lines s, IsLine line) ∧
        lines (unlines (lines s)) = lines s) ∧
    (∀ pieces last, (∀ piece ∈ pieces.map Prod.fst ++ [last], IsLine piece) →
      (lines (ended pieces last) = pieces.map Prod.fst ++ [last] ↔ ¬Met pieces)) ∧
    ∀ p q, lines (p ++ "\n" ++ q) = lines p ++ lines q ↔ p.toList.getLast? ≠ some '\r' := by
  refine ⟨fun s => ⟨?_, (scan_eq_lines s).symm, lines_ne_nil s, fun _ => isLine_of_mem_lines,
    lines_unlines_lines s⟩, fun _ _ => lines_ended_iff, lines_fed_iff⟩
  rw [Chars.feedReturns_feedPairs, lines, Chars.lines]

theorem lines_of_mixed_ends :
    lines (ended [("LOAD R1 5", .ret), ("", .both), ("PRINT R1", .feed)] "") =
        ["LOAD R1 5", "", "PRINT R1", ""] ∧
      lines (ended [("LOAD R1 5", .ret), ("", .feed), ("PRINT R1", .feed)] "") ≠
        ["LOAD R1 5", "", "PRINT R1", ""] := by
  have plain : ∀ piece ∈ ["LOAD R1 5", "", "PRINT R1", ""], IsLine piece := by simp [IsLine]
  have back := lines_are_scanned.2.1
  constructor
  · refine (back [("LOAD R1 5", .ret), ("", .both), ("PRINT R1", .feed)] "" plain).mpr ?_
    simp [met_cons, not_met_nil]
  · intro all
    refine (back [("LOAD R1 5", .ret), ("", .feed), ("PRINT R1", .feed)] "" plain).mp all ?_
    exact met_cons.mpr (.inl ⟨rfl, rfl⟩)

end RegisterMachine.Text
