import RegisterMachine.Numeral

/-! Word widths. A bounded register holds a two's complement word; an unbounded one holds an
integer, but no larger than can still be written. -/
namespace RegisterMachine

inductive Width where
  | unbounded
  | bits (count : Nat) (two_le : 2 ≤ count)
  deriving DecidableEq, Repr

namespace Width

/-- Magnitudes below `2 ^ 14000` have at most 4215 decimal digits. -/
def unboundedBits : Nat := 14000

def ofBits? (count : Int) : Option Width :=
  if h : 2 ≤ count then some (bits count.toNat (by omega)) else none

def count? : Width → Option Nat
  | unbounded => none
  | bits count _ => some count

def size (count : Nat) : Nat := Nat.pow 2 count

def half (count : Nat) : Nat := size (count - 1)

def least? : Width → Option Int
  | unbounded => none
  | bits count _ => some (-half count)

def greatest? : Width → Option Int
  | unbounded => none
  | bits count _ => some (half count - 1)

/-- The bounds, if the power of two that they are made of can be had. -/
def bounds (w : Width) : Except Numeral.Excess (Option Int × Option Int) :=
  match w with
  | unbounded => .ok (none, none)
  | bits count _ => match Numeral.powerExcess? (count - 1) with
    | some e => .error e
    | none => .ok (w.least?, w.greatest?)

/-- Folds an integer into the word: the representative modulo `size count` that the word holds. -/
def wrap : Width → Int → Int
  | unbounded, v => v
  | bits count _, v => v.bmod (size count)

/-- Folding needs the power of two that it is a remainder by. -/
def fold (w : Width) (v : Int) : Except Numeral.Excess Int :=
  match w with
  | unbounded => .ok v
  | bits count _ => match Numeral.powerExcess? count with
    | some e => .error e
    | none => .ok (w.wrap v)

def Holds : Width → Int → Prop
  | unbounded, v => v.natAbs < size unboundedBits
  | bits count _, v => -half count ≤ v ∧ v ≤ half count - 1

instance : (w : Width) → (v : Int) → Decidable (w.Holds v)
  | unbounded, _ => inferInstanceAs (Decidable (_ < _))
  | bits _ _, _ => inferInstanceAs (Decidable (_ ∧ _))

theorem size_pos (count : Nat) : 0 < size count := Nat.two_pow_pos count

theorem half_pos (count : Nat) : 0 < half count := size_pos _

theorem size_succ (count : Nat) : size (count + 1) = 2 * size count := Nat.pow_succ'

theorem size_eq_half {count : Nat} (h : 2 ≤ count) : size count = 2 * half count := by
  obtain ⟨k, rfl⟩ : ∃ k, count = k + 1 := ⟨count - 1, by omega⟩
  exact size_succ k

@[simp] theorem wrap_unbounded (v : Int) : wrap unbounded v = v := rfl

theorem wrap_bits (count : Nat) (h : 2 ≤ count) (v : Int) :
    wrap (bits count h) v = v.bmod (size count) := rfl

theorem holds_wrap_bits (count : Nat) (h : 2 ≤ count) (v : Int) :
    (bits count h).Holds (wrap (bits count h) v) := by
  have low := Int.le_bmod (x := v) (size_pos count)
  have high := Int.bmod_lt (x := v) (size_pos count)
  have := size_eq_half h
  simp only [Holds, wrap]
  omega

theorem holds_zero (w : Width) : w.Holds 0 := by
  cases w with
  | unbounded => exact size_pos _
  | bits count h =>
    have := half_pos count
    simp only [Holds]
    omega

end Width
end RegisterMachine
