import RegisterMachine.Width

/-! Folding as arithmetic modulo a power of two: it fixes what a word holds, it may be left out
under a sum, and a narrow fold forgets a wider one. A value that a register of no great width
holds can be written. -/
namespace RegisterMachine.Width

/-- Unbounded registers are the widest. -/
def Narrower : Width → Width → Prop
  | _, unbounded => True
  | unbounded, bits _ _ => False
  | bits m _, bits n _ => m ≤ n

instance : LE Width := ⟨Narrower⟩

theorem le_refl (w : Width) : w ≤ w := by
  cases w with
  | unbounded => trivial
  | bits count two_le => exact Nat.le_refl count

theorem le_unbounded (w : Width) : w ≤ unbounded := by cases w <;> trivial

@[simp] theorem bits_le_bits {m n : Nat} {hm : 2 ≤ m} {hn : 2 ≤ n} :
    bits m hm ≤ bits n hn ↔ m ≤ n := Iff.rfl

@[simp] theorem not_unbounded_le_bits {n : Nat} {hn : 2 ≤ n} : ¬unbounded ≤ bits n hn :=
  fun h => h

theorem wrap_of_holds {w : Width} {v : Int} (h : w.Holds v) : w.wrap v = v := by
  cases w with
  | unbounded => rfl
  | bits count two_le =>
    obtain ⟨low, high⟩ := h
    have := size_eq_half two_le
    apply Int.bmod_eq_of_le_mul_two
    · omega
    · omega

theorem size_le_size {m n : Nat} (h : m ≤ n) : size m ≤ size n :=
  Nat.pow_le_pow_right (by decide) h

theorem half_le_half {m n : Nat} (h : m ≤ n) : half m ≤ half n :=
  size_le_size (Nat.sub_le_sub_right h 1)

theorem wrap_add_wrap (w : Width) (a b : Int) :
    w.wrap (w.wrap a + w.wrap b) = w.wrap (a + b) := by
  cases w with
  | unbounded => rfl
  | bits count two_le => simp only [wrap_bits, Int.bmod_add_bmod, Int.add_bmod_bmod]

theorem wrap_wrap_of_le {w₁ w₂ : Width} (h : w₁ ≤ w₂) (v : Int) :
    w₁.wrap (w₂.wrap v) = w₁.wrap v := by
  cases w₂ with
  | unbounded => rfl
  | bits n hn =>
    cases w₁ with
    | unbounded => exact absurd h not_unbounded_le_bits
    | bits m hm => exact Int.bmod_bmod_of_dvd (Nat.pow_dvd_pow 2 (bits_le_bits.mp h))

theorem holds_of_fold {w : Width} {v total : Int} (h : w.fold v = .ok total) (hw : w ≠ unbounded) :
    w.Holds total := by
  cases w with
  | unbounded => exact absurd rfl hw
  | bits count two_le =>
    simp only [fold] at h
    split at h
    · cases h
    · cases h
      exact holds_wrap_bits count two_le v

theorem eq_wrap_of_fold {w : Width} {v total : Int} (h : w.fold v = .ok total) :
    total = w.wrap v := by
  cases w with
  | unbounded => cases h; rfl
  | bits count two_le =>
    simp only [fold] at h
    split at h
    · cases h
    · cases h; rfl

/-- The widest words whose values can all be written. -/
def writableBits : Nat := 14285

theorem size_writableBits_lt : size (writableBits - 1) < Numeral.limit := by decide +kernel

theorem limit_le_size : Numeral.limit ≤ size writableBits := by decide +kernel

/-- Whether everything that a register holds can be written. -/
def Writable : Width → Prop
  | unbounded => True
  | bits count _ => count ≤ writableBits

instance : (w : Width) → Decidable w.Writable
  | unbounded => inferInstanceAs (Decidable True)
  | bits _ _ => inferInstanceAs (Decidable (_ ≤ _))

theorem fits_of_natAbs_le {v : Int} {k : Nat} (hk : k ≤ writableBits - 1)
    (h : v.natAbs ≤ size k) : Numeral.Fits v :=
  calc
    v.natAbs ≤ size k := h
    _ ≤ size (writableBits - 1) := size_le_size hk
    _ < Numeral.limit := size_writableBits_lt

theorem fits_of_holds {w : Width} (hw : w.Writable) {v : Int} (h : w.Holds v) :
    Numeral.Fits v := by
  cases w with
  | unbounded => exact fits_of_natAbs_le (by decide) (Nat.le_of_lt h)
  | bits count two_le =>
    obtain ⟨low, high⟩ := h
    have small : v.natAbs ≤ half count := by omega
    exact fits_of_natAbs_le (Nat.sub_le_sub_right hw 1) small

end RegisterMachine.Width
