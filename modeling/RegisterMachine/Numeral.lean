/-! Decimal text of integers, and what an integer can exceed. Writing stops at a fixed number of
digits: an integer that needs more has no text, and whatever had to show it is given up. -/
namespace RegisterMachine.Numeral

/-- The most digits an integer is written or read with, sign not counted. -/
def maxDigits : Nat := 4300

inductive Excess where
  | written
  | stored
  deriving DecidableEq, Repr

def Excess.message : Excess → String
  | written => "Exceeds the limit (" ++ maxDigits.repr ++ " digits) for integer string conversion; " ++
    "use sys.set_int_max_str_digits() to increase the limit"
  | stored => "too many digits in integer"

def wordEnd : Int := 9223372036854775808

/-- The most digits of thirty bits that an integer is stored with. -/
def maxStored : Nat := 2305843009213693945

/-- The digits of thirty bits that a power of two is made with. If it is not made by moving whole
digits it is given one to spare. -/
def powerDigits (exponent : Nat) : Nat := exponent / 30 + if exponent % 30 = 0 then 1 else 2

def powerExcess? (exponent : Nat) : Option Excess :=
  if maxStored < powerDigits exponent then some .stored else none

theorem powerExcess?_eq_none_iff {exponent : Nat} :
    powerExcess? exponent = none ↔ powerDigits exponent ≤ maxStored := by simp [powerExcess?]

theorem powerDigits_mono {m n : Nat} (h : m ≤ n) : powerDigits m ≤ powerDigits n := by
  unfold powerDigits
  split <;> split <;> omega

theorem powerExcess?_eq_none_of_le {m n : Nat} (h : m ≤ n) (stored : powerExcess? n = none) :
    powerExcess? m = none := by
  rw [powerExcess?_eq_none_iff] at stored ⊢
  exact Nat.le_trans (powerDigits_mono h) stored

example : powerExcess? (2 ^ 64) = none ∧ powerExcess? 69175290276410818321 = some .stored := by
  decide

def text (v : Int) : String := if v < 0 then "-" ++ v.natAbs.repr else v.natAbs.repr

def limit : Nat := Nat.pow 10 maxDigits

def Fits (v : Int) : Prop := v.natAbs < limit

instance (v : Int) : Decidable (Fits v) := inferInstanceAs (Decidable (_ < _))

theorem fits_iff (v : Int) : Fits v ↔ (Nat.toDigits 10 v.natAbs).length ≤ maxDigits := by
  have positive : 0 < maxDigits := by decide
  unfold Fits limit
  generalize maxDigits = digits at positive ⊢
  exact (Nat.length_toDigits_le_iff (by decide) positive).symm

@[simp] theorem fits_neg (v : Int) : Fits (-v) ↔ Fits v := by simp [Fits]

def write? (v : Int) : Option String := if Fits v then some (text v) else none

theorem write?_of_fits {v : Int} (h : Fits v) : write? v = some (text v) := by
  unfold write?
  exact if_pos h

@[simp] theorem write?_isSome (v : Int) : (write? v).isSome ↔ Fits v := by
  unfold write?; split <;> simp [*]

end RegisterMachine.Numeral
