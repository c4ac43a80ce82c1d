import RegisterMachine.Effect
import RegisterMachine.Proofs.Width

/-! What an accepted literal denotes: leading zeros do not count, so a short literal is small, and
a literal between the bounds of a word is in the range of its width. -/
namespace RegisterMachine.Literal
open Text

theorem digit_lt {c : Char} (h : c.isDigit = true) : c.toNat - '0'.toNat < 10 := by
  have : c.toNat ≤ '9'.toNat := (Char.isDigit_iff_toNat.mp h).2
  have : '9'.toNat = '0'.toNat + 9 := rfl
  omega

theorem ofDigitChars_lt {ds : Chars} (h : ∀ c ∈ ds, c.isDigit = true) :
    Nat.ofDigitChars 10 ds 0 < Nat.pow 10 ds.length := by
  induction ds with
  | nil => decide
  | cons c rest ih =>
    have first : c.toNat - '0'.toNat < 10 := digit_lt (h c (by simp))
    have others := ih fun d hd => h d (by simp [hd])
    rw [Nat.pow_eq] at *
    rw [Nat.ofDigitChars_cons, Nat.ofDigitChars_eq_ofDigitChars_zero, List.length_cons,
      Nat.pow_succ, Nat.mul_zero, Nat.zero_add]
    calc
      10 ^ rest.length * (c.toNat - '0'.toNat) + Nat.ofDigitChars 10 rest 0
        < 10 ^ rest.length * (c.toNat - '0'.toNat) + 10 ^ rest.length :=
          Nat.add_lt_add_left others _
      _ = 10 ^ rest.length * (c.toNat - '0'.toNat + 1) := by rw [Nat.mul_succ]
      _ ≤ 10 ^ rest.length * 10 := Nat.mul_le_mul_left _ first

theorem ofDigitChars_dropZeros (ds : Chars) :
    Nat.ofDigitChars 10 (ds.dropWhile (· == '0')) 0 = Nat.ofDigitChars 10 ds 0 := by
  induction ds with
  | nil => rfl
  | cons c rest ih =>
    by_cases h : c = '0'
    · subst h
      simpa [Nat.ofDigitChars_cons] using ih
    · simp [h]

theorem natAbs_value (cs : Chars) : (value cs).natAbs = Nat.ofDigitChars 10 (significant cs) 0 := by
  unfold value significant
  rw [ofDigitChars_dropZeros]
  split <;> simp

theorem natAbs_value_lt {cs : Chars} (h : WellFormed cs) {n : Nat}
    (short : (significant cs).length ≤ n) : (value cs).natAbs < Nat.pow 10 n := by
  have digits : ∀ c ∈ significant cs, c.isDigit = true :=
    fun c hc => h.2 c ((List.dropWhile_sublist _).subset hc)
  rw [natAbs_value]
  exact Nat.lt_of_lt_of_le (ofDigitChars_lt digits) (Nat.pow_le_pow_right (by decide) short)

theorem ten_pow_maxSignificant_le : Nat.pow 10 maxSignificant ≤ Width.size Width.unboundedBits := by
  decide +kernel

theorem read_eq_ok_iff {low high : Option Int} {token : String} {v : Int} :
    read low high token = .ok v ↔
      WellFormed token.toList ∧ Short token.toList ∧ value token.toList = v ∧
        Within low high v := by
  unfold read
  by_cases formed : WellFormed token.toList
  · by_cases short : Short token.toList
    · by_cases within : Within low high (value token.toList)
      · simp only [formed, short, within, not_true_eq_false, ↓reduceIte, Except.ok.injEq, true_and]
        exact ⟨fun h => ⟨h, h ▸ within⟩, fun h => h.1⟩
      · simp only [formed, short, within, not_true_eq_false, ↓reduceIte, reduceCtorEq, true_and,
          false_iff, not_and]
        exact fun h => h ▸ within
    · simp [formed, short]
  · simp [formed]

theorem holds_of_read {w : Width} {low high : Option Int} {token : String} {v : Int}
    (bounds : w.bounds = .ok (low, high)) (h : read low high token = .ok v) : w.Holds v := by
  obtain ⟨formed, short, rfl, within⟩ := read_eq_ok_iff.mp h
  cases w with
  | unbounded =>
    exact Nat.lt_of_lt_of_le (natAbs_value_lt formed short.1) ten_pow_maxSignificant_le
  | bits count two_le =>
    simp only [Width.bounds] at bounds
    split at bounds
    · cases bounds
    · cases bounds
      simpa [Width.least?, Width.greatest?, Width.Holds] using within

end RegisterMachine.Literal
