import RegisterMachine.Proofs.Code
import RegisterMachine.Proofs.Literal

/-! Integers as literals. The text of an integer has the sign and the digits that a literal is read
by, so what is written can stand as an operand and denotes the integer, if its digits are not too
many. -/
namespace RegisterMachine

namespace Literal
open Text

def digitsOf (v : Int) : Chars := Nat.toDigits 10 v.natAbs

theorem isDigit_of_mem_digitsOf {v : Int} {c : Char} (h : c ∈ digitsOf v) : c.isDigit = true :=
  Nat.isDigit_of_mem_toDigits (by decide) (by decide) h

theorem toList_text (v : Int) :
    (Numeral.text v).toList = if v < 0 then '-' :: digitsOf v else digitsOf v := by
  unfold Numeral.text digitsOf
  split <;> simp [Nat.repr_eq_ofList_toDigits]

theorem digits_of_isDigit {cs : Chars} (h : ∀ c ∈ cs, c.isDigit = true) : digits cs = cs := by
  unfold digits
  split
  · exact absurd (h '+' (by simp)) (by decide)
  · exact absurd (h '-' (by simp)) (by decide)
  · rfl

theorem isNegative_of_isDigit {cs : Chars} (h : ∀ c ∈ cs, c.isDigit = true) :
    isNegative cs = false := by
  unfold isNegative
  split
  · exact absurd (h '-' (by simp)) (by decide)
  · rfl

theorem digits_text (v : Int) : digits (Numeral.text v).toList = digitsOf v := by
  rw [toList_text]
  split
  · rfl
  · exact digits_of_isDigit fun c => isDigit_of_mem_digitsOf

theorem isNegative_text (v : Int) : isNegative (Numeral.text v).toList = decide (v < 0) := by
  rw [toList_text]
  split
  next negative => simp [isNegative, negative]
  next positive => simp [isNegative_of_isDigit fun c => isDigit_of_mem_digitsOf, positive]

theorem wellFormed_text (v : Int) : WellFormed (Numeral.text v).toList := by
  rw [WellFormed, digits_text]
  exact ⟨Nat.toDigits_ne_nil, fun c => isDigit_of_mem_digitsOf⟩

theorem value_text (v : Int) : value (Numeral.text v).toList = v := by
  rw [value, digits_text, isNegative_text, digitsOf,
    Nat.ofDigitChars_toDigits (by decide) (by decide)]
  by_cases negative : v < 0
  · rw [if_pos (decide_eq_true negative)]
    omega
  · rw [if_neg (by simp [negative])]
    omega

theorem short_text {v : Int} (few : (digitsOf v).length ≤ maxSignificant) :
    Short (Numeral.text v).toList := by
  constructor
  · rw [significant, digits_text]
    exact Nat.le_trans (List.dropWhile_sublist _).length_le few
  · rw [digits_text]
    exact Nat.le_trans few (by decide)

theorem read_text {v : Int} (short : (digitsOf v).length ≤ maxSignificant) {low high : Option Int}
    (within : Within low high v) : read low high (Numeral.text v) = .ok v :=
  read_eq_ok_iff.mpr ⟨wellFormed_text v, short_text short, value_text v, within⟩

theorem eq_or_isDigit_of_mem_text {v : Int} {c : Char} (h : c ∈ (Numeral.text v).toList) :
    c = '-' ∨ c.isDigit = true := by
  rw [toList_text] at h
  split at h
  · exact (List.mem_cons.mp h).imp_right isDigit_of_mem_digitsOf
  · exact .inr (isDigit_of_mem_digitsOf h)

theorem not_blank_of_isDigit {c : Char} (h : c.isDigit = true) : isBlank c = false := by
  obtain ⟨low, high⟩ := Char.isDigit_iff_toNat.mp h
  have zero : '0'.toNat = 48 := rfl
  have nine : '9'.toNat = 57 := rfl
  simp [isBlank]
  omega

end Literal

theorem isToken_text (comments : Bool) (v : Int) : IsToken comments (Numeral.text v) := by
  have not_mem (c : Char) (sign : c ≠ '-') (digit : c.isDigit = false) :
      c ∉ (Numeral.text v).toList := by
    intro hc
    rcases Literal.eq_or_isDigit_of_mem_text hc with rfl | isDigit
    · exact sign rfl
    · rw [isDigit] at digit
      cases digit
  refine ⟨(isRegisterName_iff _).mpr ⟨?_, fun c hc => ?_⟩, fun _ => ⟨?_, fun slashes => ?_⟩⟩
  · intro empty
    have nonempty := (Literal.wellFormed_text v).1
    rw [empty] at nonempty
    exact nonempty rfl
  · rcases Literal.eq_or_isDigit_of_mem_text hc with rfl | digit
    · rfl
    · exact Literal.not_blank_of_isDigit digit
  · exact not_mem ';' (by decide) (by decide)
  · exact not_mem '/' (by decide) (by decide) (slashes.subset (by simp))

end RegisterMachine
