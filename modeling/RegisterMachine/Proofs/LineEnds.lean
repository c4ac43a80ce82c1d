import Mathlib.Data.List.DropRight
import RegisterMachine.Proofs.Code

/-! Line ends between two texts. A line feed, a carriage return and the two in that order end one
line each, so the lines of the whole are those of the parts, unless the carriage return of one part
meets the line feed of the other. Text that is read up to its line feeds, with what else ends a line
taken off, therefore keeps its lines: only at the end some empty ones may be missing. -/
namespace RegisterMachine.Text
namespace Chars

/-- No line end begins in one text and ends in the other. -/
def Apart (cs ds : Chars) : Prop := cs.getLast? = some '\r' → ds.head? ≠ some '\n'

theorem Apart.of_cons {c : Char} {cs ds : Chars} (h : Apart (c :: cs) ds) : Apart cs ds :=
  fun last => h (by simp [List.getLast?_cons, last])

theorem unifyEnds_append {cs ds : Chars} (h : Apart cs ds) :
    unifyEnds (cs ++ ds) = unifyEnds cs ++ unifyEnds ds := by
  fun_induction unifyEnds cs with
  | case1 => rfl
  | case2 cs ih => simp only [List.cons_append, unifyEnds, ih h.of_cons.of_cons]
  | case3 cs alone ih =>
    have alone' : ∀ tail, cs ++ ds = '\n' :: tail → False := by
      intro tail feed
      cases cs with
      | nil => exact h rfl (by simpa using congrArg List.head? feed)
      | cons c cs => exact alone cs (congrArg (· :: cs) (List.cons.inj feed).1)
    rw [List.cons_append, unifyEnds.eq_3 _ alone', ih h.of_cons, List.cons_append]
  | case4 c cs _ other ih =>
    rw [List.cons_append, unifyEnds.eq_4 c _ (fun _ ret _ => other ret) other, ih h.of_cons,
      List.cons_append]

end Chars

/-- The ways to end a line. -/
inductive LineEnd where
  | feed
  | ret
  | both
  deriving DecidableEq, Repr

namespace LineEnd

def chars : LineEnd → Chars
  | feed => ['\n']
  | ret => ['\r']
  | both => ['\r', '\n']

/-- Between two texts the end stays apart from both. -/
def Between (e : LineEnd) (cs ds : Chars) : Prop :=
  Chars.Apart cs e.chars ∧ Chars.Apart e.chars ds

variable {e : LineEnd} {cs ds : Chars}

theorem between_feed (h : cs.getLast? ≠ some '\r') : feed.Between cs ds :=
  ⟨fun last => absurd last h, fun ret => absurd ret (by decide)⟩

theorem between_ret (h : ds.head? ≠ some '\n') : ret.Between cs ds :=
  ⟨fun _ feed => absurd feed (by decide), fun _ => h⟩

theorem between_both : both.Between cs ds :=
  ⟨fun _ feed => absurd feed (by decide), fun ret => absurd ret (by decide)⟩

theorem unifyEnds_append (h : e.Between cs ds) : Chars.unifyEnds (cs ++ (e.chars ++ ds)) =
    Chars.unifyEnds cs ++ '\n' :: Chars.unifyEnds ds := by
  have before : Chars.Apart cs (e.chars ++ ds) := by
    cases e <;> exact h.1
  rw [Chars.unifyEnds_append before, Chars.unifyEnds_append h.2]
  cases e <;> rfl

theorem lines_append (h : e.Between cs ds) :
    Chars.lines (cs ++ (e.chars ++ ds)) = Chars.lines cs ++ Chars.lines ds := by
  rw [Chars.lines, unifyEnds_append h]
  exact List.splitOn_append_cons_self _ _

end LineEnd

namespace Chars

def dropEnds (cs : Chars) : Chars := cs.rdropWhile fun c => c == '\r' || c == '\n'

theorem getLast?_dropEnds (cs : Chars) : (dropEnds cs).getLast? ≠ some '\r' := by
  intro last
  have nonempty : dropEnds cs ≠ [] := List.ne_nil_of_mem (List.mem_of_getLast? last)
  have last := (List.getLast_eq_iff_getLast?_eq_some nonempty).mpr last
  have stays := List.rdropWhile_last_not _ cs nonempty
  unfold dropEnds at last
  rw [last] at stays
  exact stays (by decide)

theorem exists_dropEnds {cs : Chars} (h : '\n' ∉ cs) :
    ∃ k, cs = dropEnds cs ++ List.replicate k '\r' := by
  have returns : ∀ c ∈ cs.rtakeWhile fun c => c == '\r' || c == '\n', c = '\r' := by
    intro c hc
    have mem : c ∈ cs := (List.rtakeWhile_suffix _ _).subset hc
    have ends := List.mem_rtakeWhile_imp hc
    simp only [Bool.or_eq_true, beq_iff_eq] at ends
    exact ends.resolve_right fun feed => h (feed ▸ mem)
  refine ⟨(cs.rtakeWhile fun c => c == '\r' || c == '\n').length, ?_⟩
  rw [dropEnds, ← List.eq_replicate_of_mem returns, List.rdropWhile_append_rtakeWhile]

theorem lines_append_returns (cs : Chars) (k : Nat) :
    lines (cs ++ List.replicate k '\r') = lines cs ++ List.replicate k [] := by
  induction k with
  | zero => simp
  | succ k ih =>
    have last : LineEnd.ret.Between (cs ++ List.replicate k '\r') [] :=
      LineEnd.between_ret (by simp)
    have split := LineEnd.lines_append last
    rw [ih] at split
    rw [List.replicate_succ', List.replicate_succ', ← List.append_assoc, ← List.append_assoc]
    simpa [LineEnd.chars] using split

theorem lines_append_feed {cs ds : Chars} (unfed : '\n' ∉ cs)
    (apart : ¬['\r', '\r', '\n'] <:+: cs ++ '\n' :: ds) :
    lines (cs ++ '\n' :: ds) = lines (dropEnds cs) ++ lines ds := by
  obtain ⟨returns, split⟩ := exists_dropEnds unfed
  have last := getLast?_dropEnds cs
  generalize dropEnds cs = body at split last
  subst split
  rw [List.append_assoc] at apart ⊢
  match returns with
  | 0 => exact LineEnd.lines_append (LineEnd.between_feed last)
  | 1 => exact LineEnd.lines_append LineEnd.between_both
  | k + 2 =>
    refine absurd ⟨body ++ List.replicate k '\r', ds, ?_⟩ apart
    simp [List.replicate_succ']

theorem fed_cons_cons (piece next : Chars) (pieces : List Chars) :
    ['\n'].intercalate (piece :: next :: pieces) =
      piece ++ '\n' :: ['\n'].intercalate (next :: pieces) := by
  simp [List.intercalate_cons_cons]

/-- Taking the line ends off pieces that line feeds join leaves their lines, but for empty ones at
the end. -/
theorem exists_lines_dropEnds {pieces : List Chars} (nonempty : pieces ≠ [])
    (unfed : ∀ piece ∈ pieces, '\n' ∉ piece)
    (apart : ¬['\r', '\r', '\n'] <:+: ['\n'].intercalate pieces) :
    ∃ k, lines (['\n'].intercalate pieces) =
      lines (['\n'].intercalate (pieces.map dropEnds)) ++ List.replicate k [] := by
  induction pieces with
  | nil => exact absurd rfl nonempty
  | cons piece pieces ih =>
    obtain ⟨first, others⟩ := List.forall_mem_cons.mp unfed
    cases pieces with
    | nil =>
      obtain ⟨returns, split⟩ := exists_dropEnds first
      refine ⟨returns, ?_⟩
      rw [List.map_singleton, List.intercalate_singleton, List.intercalate_singleton,
        ← lines_append_returns, ← split]
    | cons next pieces =>
      rw [fed_cons_cons] at apart
      obtain ⟨k, ih⟩ := ih (by simp) others fun inside =>
        apart (inside.trans (List.suffix_append_of_suffix (List.suffix_cons _ _)).isInfix)
      have fed : LineEnd.feed.Between (dropEnds piece)
          (['\n'].intercalate ((next :: pieces).map dropEnds)) :=
        LineEnd.between_feed (getLast?_dropEnds piece)
      refine ⟨k, ?_⟩
      rw [fed_cons_cons, lines_append_feed first apart, ih, ← List.append_assoc,
        ← LineEnd.lines_append fed, List.map_cons, List.map_cons, List.map_cons,
        fed_cons_cons]
      rfl

end Chars
end RegisterMachine.Text
