import Mathlib.Data.Int.Bitwise
import Mathlib.Data.Int.ModEq
import RegisterMachine.Proofs.CrashFreedom

/-! Folding is two's complement. The low bits of an integer, counted down by one more power of two
where they exceed the greatest word, are the one word that the integer is congruent to. A width has
this fold as far as its power of two can be had. -/
namespace RegisterMachine.Width

/-- A word of so many bits that is congruent to an integer. -/
structure IsWordOf (count : Nat) (v word : Int) : Prop where
  least_le : -2 ^ (count - 1) ≤ word
  le_greatest : word ≤ 2 ^ (count - 1) - 1
  modEq : word ≡ v [ZMOD 2 ^ count]

/-- Folding on the bits: a mask keeps the low ones, and what exceeds the greatest word is counted
down. -/
def masked (count : Nat) (v : Int) : Int :=
  let low := v.land (2 ^ count - 1)
  if 2 ^ (count - 1) - 1 < low then low - 2 ^ count else low

/-- Taking bits off a row of ones is subtraction, and nothing is borrowed. -/
theorem ldiff_ones (n m : Nat) : Nat.ldiff (2 ^ n - 1) m = 2 ^ n - (m % 2 ^ n + 1) := by
  have less : m % 2 ^ n < 2 ^ n := Nat.mod_lt m (Nat.two_pow_pos n)
  apply Nat.eq_of_testBit_eq
  intro i
  rw [Nat.testBit_ldiff, Nat.testBit_two_pow_sub_one, Nat.testBit_two_pow_sub_succ less,
    Nat.testBit_mod_two_pow]
  by_cases low : i < n <;> simp [low]

theorem land_ones (n : Nat) (v : Int) : v.land (2 ^ n - 1) = v % 2 ^ n := by
  have ones : (2 ^ n - 1 : Int) = ((2 ^ n - 1 : Nat) : Int) := by
    push_cast [Nat.one_le_two_pow]
    rfl
  rw [ones]
  cases v with
  | ofNat m =>
    change ((m &&& (2 ^ n - 1) : Nat) : Int) = (m : Int) % 2 ^ n
    rw [Nat.and_two_pow_sub_one_eq_mod]
    norm_cast
  | negSucc m =>
    change ((Nat.ldiff (2 ^ n - 1) m : Nat) : Int) = Int.negSucc m % 2 ^ n
    have pos : (0 : Int) < 2 ^ n := by exact_mod_cast Nat.two_pow_pos n
    have less : m % 2 ^ n + 1 ≤ 2 ^ n := Nat.mod_lt m (Nat.two_pow_pos n)
    rw [ldiff_ones, Int.negSucc_emod m pos]
    push_cast [less]
    omega

theorem cast_size (count : Nat) : (size count : Int) = 2 ^ count := by
  rw [size_eq]
  exact Int.natCast_pow 2 count

section
variable {count : Nat} {two_le : 2 ≤ count}

theorem masked_eq_wrap (v : Int) : masked count v = (bits count two_le).wrap v := by
  have double : (2 : Int) ^ count = 2 * 2 ^ (count - 1) := by
    rw [← pow_succ', Nat.sub_add_cancel (by omega)]
  rw [wrap_bits, Int.bmod_def, cast_size, masked, land_ones]
  split <;> split <;> omega

/-- Folding sees no more of an integer than its remainder. -/
theorem wrap_congr {u v : Int} (h : u ≡ v [ZMOD 2 ^ count]) :
    (bits count two_le).wrap u = (bits count two_le).wrap v := by
  simp only [wrap_bits, Int.bmod_def, cast_size, h.eq]

theorem isWordOf_wrap (v : Int) : IsWordOf count v ((bits count two_le).wrap v) := by
  obtain ⟨low, high⟩ := holds_wrap_bits count two_le v
  rw [cast_half] at low high
  refine ⟨low, high, ?_⟩
  rw [← cast_size]
  exact Int.bmod_emod

theorem IsWordOf.holds {v word : Int} (h : IsWordOf count v word) :
    (bits count two_le).Holds word := by
  rw [Holds, cast_half]
  exact ⟨h.least_le, h.le_greatest⟩

theorem IsWordOf.eq_wrap {v word : Int} (h : IsWordOf count v word) :
    word = (bits count two_le).wrap v :=
  calc
    word = (bits count two_le).wrap word := (wrap_of_holds h.holds).symm
    _ = (bits count two_le).wrap v := wrap_congr h.modEq

theorem holds_iff_wrap_eq (v : Int) :
    (bits count two_le).Holds v ↔ (bits count two_le).wrap v = v :=
  ⟨wrap_of_holds, fun h => h ▸ holds_wrap_bits count two_le v⟩

theorem fold_of_room (room : Numeral.powerExcess? count = none) (v : Int) :
    (bits count two_le).fold v = .ok ((bits count two_le).wrap v) := by
  simp only [fold, room]

end

/-- Whatever the integers, a width whose power of two can be had folds them to the words that they
are congruent to. The words are fixed, sums may be folded first, and a narrower fold sees through
a wider one. -/
theorem fold_is_twos_complement {count : Nat} (two_le : 2 ≤ count)
    (room : Numeral.powerExcess? count = none) (a b : Int) :
    (bits count two_le).bounds = .ok (some (-2 ^ (count - 1)), some (2 ^ (count - 1) - 1)) ∧
    ∃ u v, (bits count two_le).fold a = .ok u ∧ (bits count two_le).fold b = .ok v ∧
      u = masked count a ∧
      IsWordOf count a u ∧ (∀ word, IsWordOf count a word → word = u) ∧
      ((bits count two_le).Holds a ↔ u = a) ∧
      (bits count two_le).fold u = .ok u ∧
      (∃ sum, (bits count two_le).fold (u + v) = .ok sum ∧
        (bits count two_le).fold (a + b) = .ok sum) ∧
      ∀ m (hm : 2 ≤ m), m ≤ count →
        ∃ narrow, (bits m hm).fold u = .ok narrow ∧ (bits m hm).fold a = .ok narrow := by
  have narrow_room {m : Nat} (le : m ≤ count) := Numeral.powerExcess?_eq_none_of_le le room
  refine ⟨?_, _, _, fold_of_room room a, fold_of_room room b, (masked_eq_wrap a).symm,
    isWordOf_wrap a, fun word h => h.eq_wrap, holds_iff_wrap_eq a, ?_, ⟨_, ?_, fold_of_room room _⟩,
    fun m hm le => ⟨_, ?_, fold_of_room (narrow_room le) _⟩⟩
  · rw [bounds_of_room room, cast_half]
  · rw [fold_of_room room, wrap_of_holds (holds_wrap_bits count two_le a)]
  · rw [fold_of_room room, wrap_add_wrap]
  · rw [fold_of_room (narrow_room le), wrap_wrap_of_le (bits_le_bits.mpr le)]

theorem fold_of_eight_bits :
    2 ≤ 8 ∧ Numeral.powerExcess? 8 = none ∧
    (bits 8 (by decide)).fold 128 = .ok (-128) ∧ (bits 8 (by decide)).fold (-129) = .ok 127 ∧
    (∃ sum, (bits 8 (by decide)).fold (-128 + 127) = .ok sum ∧
      (bits 8 (by decide)).fold (128 + -129) = .ok sum) ∧
    ∃ narrow, (bits 2 (by decide)).fold (-128) = .ok narrow ∧
      (bits 2 (by decide)).fold 128 = .ok narrow := by
  have room : Numeral.powerExcess? 8 = none := by decide
  obtain ⟨-, u, v, great, small, masked, -, -, -, -, sum, narrow⟩ :=
    fold_is_twos_complement (by decide) room 128 (-129)
  obtain rfl : u = -128 := masked
  obtain rfl : v = 127 := Except.ok.inj (small.symm.trans (by rfl))
  exact ⟨by decide, room, great, small, sum, narrow 2 (by decide) (by decide)⟩

/-- A word of 10^20 bits folds nothing: its power of two has more digits than are stored. -/
theorem no_word_of_vast_width : ¬∀ count (two_le : 2 ≤ count) (v : Int),
    ∃ word, (bits count two_le).fold v = .ok word ∧ IsWordOf count v word := by
  intro folds
  obtain ⟨word, folded, -⟩ := folds (10 ^ 20) (by decide) 0
  have stored : (bits (10 ^ 20) (by decide)).fold 0 = .error .stored := by rfl
  rw [stored] at folded
  cases folded

end RegisterMachine.Width
