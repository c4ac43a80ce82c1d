import Mathlib.Data.List.Induction
import RegisterMachine.Numeral.Spelling
import RegisterMachine.Proofs.Decimal

/-! Integers as people spell them, against integers as they are written. Every integer that can be
written is read back from its text, and whatever is read can be written. -/
namespace RegisterMachine

namespace Text

theorem decimalValue?_of_isDigit {c : Char} (h : c.isDigit = true) :
    decimalValue? c = some (c.toNat - '0'.toNat) := by
  obtain ⟨low, high⟩ := Char.isDigit_iff_toNat.mp h
  have zero : '0'.toNat = 0x30 := rfl
  have nine : '9'.toNat = 0x39 := rfl
  have inside : 0x30 ≤ c.toNat ∧ c.toNat < 0x30 + 10 := by omega
  rw [decimalValue?, decimalZeros, List.findSome?_cons, if_pos inside, zero]

end Text

namespace Numeral
open Text

section
variable {cs : Chars} (digits : ∀ c ∈ cs, c.isDigit = true)
include digits

theorem spelledDigits?_of_isDigit (nonempty : cs ≠ []) :
    spelledDigits? cs = some (cs.map fun c => c.toNat - '0'.toNat) := by
  fun_induction spelledDigits? cs with
  | case1 => exact absurd rfl nonempty
  | case2 c => rw [decimalValue?_of_isDigit (digits c (by simp)), Option.map_some]; rfl
  | case3 c cs ih => exact absurd (digits '_' (by simp)) (by decide)
  | case4 c cs single underscore ih =>
    have others : cs ≠ [] := fun h => single (by rw [h])
    rw [decimalValue?_of_isDigit (digits c (by simp)), ih (fun d hd => digits d (by simp [hd])) others]
    rfl

theorem magnitude?_of_isDigit (nonempty : cs ≠ []) (short : cs.length ≤ maxDigits) :
    magnitude? cs = some (Nat.ofDigitChars 10 cs 0) := by
  have positional : positional (cs.map fun c => c.toNat - '0'.toNat) = Nat.ofDigitChars 10 cs 0 := by
    rw [positional, List.foldl_map, Nat.ofDigitChars]
  simp only [magnitude?, spelledDigits?_of_isDigit digits nonempty, List.length_map, positional,
    Option.bind_eq_bind, Option.bind_some, if_pos short]

end

theorem not_margin_of_mem_text {v : Int} {c : Char} (h : c ∈ (text v).toList) :
    isMargin c = false := by
  have blank : isBlank c = false := by
    rcases Literal.eq_or_isDigit_of_mem_text h with rfl | digit
    · rfl
    · exact Literal.not_blank_of_isDigit digit
  rw [isMargin, blank, Bool.false_and]

theorem dropWhile_isMargin {cs : Chars} (h : ∀ c ∈ cs, isMargin c = false) :
    cs.dropWhile isMargin = cs := by
  cases cs with
  | nil => rfl
  | cons c cs => rw [List.dropWhile_cons_of_neg (by simp [h c])]

theorem read?_text {v : Int} (fits : Fits v) : read? (text v) = some v := by
  have digits : ∀ c ∈ Literal.digitsOf v, c.isDigit = true := fun c => Literal.isDigit_of_mem_digitsOf
  have magnitude : magnitude? (Literal.digitsOf v) = some v.natAbs := by
    rw [magnitude?_of_isDigit digits Nat.toDigits_ne_nil ((fits_iff v).mp fits),
      Literal.digitsOf, Nat.ofDigitChars_toDigits (by decide) (by decide)]
  have whole : (((text v).toList.dropWhile isMargin).reverse.dropWhile isMargin).reverse =
      (text v).toList := by
    rw [dropWhile_isMargin fun c => not_margin_of_mem_text, dropWhile_isMargin fun c hc =>
      not_margin_of_mem_text (List.mem_reverse.mp hc), List.reverse_reverse]
  simp only [read?, whole]
  rw [Literal.toList_text]
  by_cases negative : v < 0
  · simp only [if_pos negative, magnitude]
    exact congrArg some (show -(v.natAbs : Int) = v by omega)
  · simp only [if_neg negative]
    split
    next rest sign => exact absurd (digits '-' (by simp [sign])) (by decide)
    next rest sign => exact absurd (digits '+' (by simp [sign])) (by decide)
    · rw [magnitude]
      exact congrArg some (show (v.natAbs : Int) = v by omega)

theorem lt_ten_of_spelledDigits? {cs : Chars} {digits : List Nat}
    (h : spelledDigits? cs = some digits) : ∀ d ∈ digits, d < 10 := by
  fun_induction spelledDigits? cs generalizing digits with
  | case1 => cases h
  | case2 c =>
    obtain ⟨d, value, rfl⟩ := Option.map_eq_some_iff.mp h
    simpa using decimalValue?_lt value
  | case3 c cs ih | case4 c cs _ _ ih =>
    simp only [Option.bind_eq_bind, Option.bind_eq_some_iff] at h
    obtain ⟨d, value, rest, others, h⟩ := h
    cases h
    exact List.forall_mem_cons.mpr ⟨decimalValue?_lt value, ih others⟩

theorem positional_lt {digits : List Nat} (h : ∀ d ∈ digits, d < 10) :
    positional digits < Nat.pow 10 digits.length := by
  induction digits using List.reverseRecOn with
  | nil => decide
  | append_singleton digits last ih =>
    have before := ih fun d hd => h d (by simp [hd])
    have small : last < 10 := h last (by simp)
    rw [positional, List.foldl_append, ← positional, List.foldl_cons, List.foldl_nil,
      List.length_append, List.length_singleton]
    rw [Nat.pow_eq] at before ⊢
    rw [Nat.pow_succ]
    omega

theorem magnitude?_lt {cs : Chars} {n : Nat} (h : magnitude? cs = some n) : n < limit := by
  simp only [magnitude?, Option.bind_eq_bind, Option.bind_eq_some_iff] at h
  obtain ⟨digits, spelled, h⟩ := h
  split at h
  next short =>
    cases h
    unfold limit
    generalize maxDigits = most at short ⊢
    exact Nat.lt_of_lt_of_le (positional_lt (lt_ten_of_spelledDigits? spelled))
      (Nat.pow_le_pow_right (by decide) short)
  next => cases h

theorem fits_of_read? {s : String} {v : Int} (h : read? s = some v) : Fits v := by
  unfold read? at h
  simp only at h
  split at h
  · obtain ⟨u, absolute, rfl⟩ := Option.map_eq_some_iff.mp h
    obtain ⟨n, magnitude, cast⟩ := Option.bind_eq_some_iff.mp absolute
    cases cast
    exact (fits_neg n).mpr (magnitude?_lt magnitude)
  all_goals
    obtain ⟨n, magnitude, rfl⟩ := Option.map_eq_some_iff.mp h
    exact magnitude?_lt magnitude

end Numeral
end RegisterMachine
