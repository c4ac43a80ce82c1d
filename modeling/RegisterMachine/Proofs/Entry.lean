import Mathlib.Data.List.DropRight
import RegisterMachine.Session

/-! What a typed line asks for, said of its text: whether it quits, which command it names, or what
line of a program it is. The cases exclude each other, so each command can be told by its name. -/
namespace RegisterMachine.Session

def IsCommand (s : String) : Prop := (Text.trim s).toList.head? = some ':'

def Quits (s : String) : Prop := Text.trim s ∈ quitNames

def Asks (c : Command) (s : String) : Prop :=
  IsCommand s ∧ (Text.words (Text.trim s)).head? = some c.name

instance (s : String) : Decidable (IsCommand s) := inferInstanceAs (Decidable (_ = _))

instance (s : String) : Decidable (Quits s) := inferInstanceAs (Decidable (_ ∈ _))

instance (c : Command) (s : String) : Decidable (Asks c s) := inferInstanceAs (Decidable (_ ∧ _))

def typed (s : String) : String :=
  String.ofList (s.toList.rdropWhile fun c => c == '\r' || c == '\n')

theorem Command.ofName?_eq_some_iff {s : String} {c : Command} :
    Command.ofName? s = some c ↔ c.name = s := by
  constructor
  · intro h
    simpa using List.find?_some h
  · rintro rfl
    exact Command.ofName?_name c

theorem Asks.unique {s : String} {c d : Command} (hc : Asks c s) (hd : Asks d s) : c = d := by
  have name : c.name = d.name := Option.some.inj (hc.2.symm.trans hd.2)
  exact Option.some.inj ((Command.ofName?_name c).symm.trans (name ▸ Command.ofName?_name d))

theorem Quits.isCommand {s : String} (h : Quits s) : IsCommand s := by
  unfold Quits at h
  unfold IsCommand
  simp only [quitNames, List.mem_cons, List.not_mem_nil, or_false] at h
  rcases h with h | h | h <;> rw [h] <;> decide

theorem Asks.not_quits {s : String} {c : Command} (h : Asks c s) : ¬Quits s := by
  intro quits
  unfold Quits at quits
  obtain ⟨_, first⟩ := h
  simp only [quitNames, List.mem_cons, List.not_mem_nil, or_false] at quits
  rcases quits with text | text | text <;> rw [text] at first <;> cases c <;> revert first <;>
    decide +kernel

namespace Entry
variable {s : String}

theorem ofLine_of_quits (h : Quits s) : ofLine s = .quit := if_pos h

theorem ofLine_of_asks {c : Command} (h : Asks c s) : ofLine s = .command c := by
  have stays : Text.trim s ∉ quitNames := h.not_quits
  obtain ⟨colon, first⟩ := h
  unfold IsCommand at colon
  simp only [ofLine, if_neg stays, if_pos colon, first, Option.bind_some, Command.ofName?_name]

theorem ofLine_of_code (h : ¬IsCommand s) : ofLine s = .code (typed s) := by
  have stays : Text.trim s ∉ quitNames := fun quits => h (Quits.isCommand quits)
  unfold IsCommand at h
  simp only [ofLine, if_neg stays, if_neg h]
  rfl

theorem ofLine_of_unknown (colon : IsCommand s) (stays : ¬Quits s) (unasked : ∀ c, ¬Asks c s) :
    ofLine s = .unknown (Text.trim s) := by
  have unnamed : (Text.words (Text.trim s)).head?.bind Command.ofName? = none := by
    rw [Option.eq_none_iff_forall_ne_some]
    intro c found
    obtain ⟨word, first, named⟩ := Option.bind_eq_some_iff.mp found
    rw [Command.ofName?_eq_some_iff] at named
    exact unasked c ⟨colon, named ▸ first⟩
  unfold Quits at stays
  unfold IsCommand at colon
  simp only [ofLine, if_neg stays, if_pos colon, unnamed]

end Entry

theorem quits_or_asks_or_unknown_or_code (s : String) :
    Quits s ∨ (∃ c, Asks c s) ∨ (IsCommand s ∧ ¬Quits s ∧ ∀ c, ¬Asks c s) ∨ ¬IsCommand s := by
  by_cases colon : IsCommand s
  · by_cases quits : Quits s
    · exact .inl quits
    · by_cases asks : ∃ c, Asks c s
      · exact .inr (.inl asks)
      · exact .inr (.inr (.inl ⟨colon, quits, not_exists.mp asks⟩))
  · exact .inr (.inr (.inr colon))

end RegisterMachine.Session
