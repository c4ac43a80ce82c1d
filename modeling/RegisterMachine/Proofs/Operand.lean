import Mathlib.Data.Nat.Digits.Defs
import RegisterMachine.Proofs.Decimal
import RegisterMachine.Proofs.NeverStuck

/-! Integer operands. The tokens that are read are told by their spelling alone: a sign or none,
then digits that are not too many, and each digit counts by its place. Every other token is refused
for the first thing that is wrong with it. -/
namespace RegisterMachine.Literal
open Text

inductive Sign where
  | unsigned
  | plus
  | minus
  deriving DecidableEq, Repr

namespace Sign

def chars : Sign → Chars
  | unsigned => []
  | plus => ['+']
  | minus => ['-']

def apply : Sign → Nat → Int
  | minus, n => -n
  | _, n => n

end Sign

/-- A token is a sign, or none, and at least one ASCII digit. -/
structure Spells (token : String) (sign : Sign) (digits : Chars) : Prop where
  chars : token.toList = sign.chars ++ digits
  nonempty : digits ≠ []
  ascii : ∀ c ∈ digits, '0' ≤ c ∧ c ≤ '9'

/-- Each digit times the power of ten of its place, counted from the last. -/
def placeValue (digits : Chars) : Nat :=
  Nat.ofDigits 10 (digits.reverse.map fun c => c.toNat - '0'.toNat)

/-- Not too many digits, neither with leading zeros nor without. -/
def FewEnough (digits : Chars) : Prop :=
  digits.length ≤ 4300 ∧ (digits.dropWhile (· == '0')).length ≤ 4000

def Refuses (low high : Option Int) (token detail : String) : Prop :=
  ∃ defect : Defect, operand low high token = .error (.fault (.literal token defect)) ∧
    defect.detail = detail

theorem isDigit_iff (c : Char) : c.isDigit = true ↔ '0' ≤ c ∧ c ≤ '9' := by
  simp [Char.isDigit, Char.le_def]

theorem ofDigitChars_eq_placeValue (ds : Chars) : Nat.ofDigitChars 10 ds 0 = placeValue ds := by
  induction ds with
  | nil => rfl
  | cons c rest ih =>
    rw [Nat.ofDigitChars_cons, Nat.ofDigitChars_eq_ofDigitChars_zero, ih, placeValue, placeValue,
      List.reverse_cons, List.map_append, Nat.ofDigits_append]
    simp [Nat.add_comm]

namespace Spells
variable {token : String} {sign : Sign} {ds : Chars} (h : Spells token sign ds)
include h

theorem isDigit : ∀ c ∈ ds, c.isDigit = true := fun c hc => (isDigit_iff c).mpr (h.ascii c hc)

theorem digits_eq : digits token.toList = ds := by
  rw [h.chars]
  cases sign with
  | unsigned => exact digits_of_isDigit h.isDigit
  | plus => rfl
  | minus => rfl

theorem isNegative_eq : isNegative token.toList = decide (sign = .minus) := by
  rw [h.chars]
  cases sign with
  | unsigned => exact isNegative_of_isDigit h.isDigit
  | plus => rfl
  | minus => rfl

theorem wellFormed : WellFormed token.toList := by
  rw [WellFormed, h.digits_eq]
  exact ⟨h.nonempty, h.isDigit⟩

theorem value_eq : value token.toList = sign.apply (placeValue ds) := by
  rw [value, h.digits_eq, h.isNegative_eq, ofDigitChars_eq_placeValue]
  cases sign <;> rfl

theorem short_iff : Short token.toList ↔ FewEnough ds := by
  rw [Short, significant, h.digits_eq]
  exact And.comm

end Spells

theorem exists_sign (cs : Chars) : ∃ sign : Sign, cs = sign.chars ++ digits cs := by
  unfold digits
  split
  · exact ⟨.plus, rfl⟩
  · exact ⟨.minus, rfl⟩
  · exact ⟨.unsigned, rfl⟩

theorem exists_spells {token : String} (h : WellFormed token.toList) :
    ∃ sign ds, Spells token sign ds := by
  obtain ⟨sign, chars⟩ := exists_sign token.toList
  exact ⟨sign, digits token.toList, chars, h.1, fun c hc => (isDigit_iff c).mp (h.2 c hc)⟩

section
variable {low high : Option Int} {token : String}

theorem read_of_malformed (malformed : ¬WellFormed token.toList) :
    read low high token = .error .malformed := by
  simp only [read, malformed, not_false_eq_true, ↓reduceIte]

theorem read_of_long (formed : WellFormed token.toList) (long : ¬Short token.toList) :
    read low high token = .error .tooLong := by
  simp only [read, formed, long, not_true_eq_false, not_false_eq_true, ↓reduceIte]

theorem read_of_outside (formed : WellFormed token.toList) (short : Short token.toList)
    (outside : ¬Within low high (value token.toList)) :
    read low high token = .error (.outOfRange low high) := by
  simp only [read, formed, short, outside, not_true_eq_false, ↓reduceIte]

theorem refuses_of_read (fits : ∀ v, v ∈ low ∨ v ∈ high → Numeral.Fits v) {defect : Defect}
    (h : read low high token = .error defect) : Refuses low high token defect.detail :=
  ⟨defect, Effect.operand_eq_fault_iff.mpr ⟨defect, h,
    writable_of_read h (fun v hv => fits v (.inl hv)) (fun v hv => fits v (.inr hv)), rfl⟩, rfl⟩

end

/-- A token is read exactly if it is spelled as an integer, of few enough digits, that lies between
the bounds, and then it is that integer. Otherwise it is refused, for its spelling first, then for
its length, then for its value. What is written for an integer is read as that integer. -/
theorem operand_reads_exactly (low high : Option Int)
    (fits : ∀ v, v ∈ low ∨ v ∈ high → Numeral.Fits v) (token : String) :
    (∀ v, operand low high token = .ok v ↔ ∃ sign ds, Spells token sign ds ∧ FewEnough ds ∧
      sign.apply (placeValue ds) = v ∧ Within low high v) ∧
    ((¬∃ sign ds, Spells token sign ds) → Refuses low high token "not a valid integer") ∧
    (∀ sign ds, Spells token sign ds → ¬FewEnough ds → Refuses low high token "too long") ∧
    (∀ sign ds, Spells token sign ds → FewEnough ds →
      ¬Within low high (sign.apply (placeValue ds)) →
      Refuses low high token ("out of range [" ++ bound low ++ ", " ++ bound high ++ "]")) ∧
    ∀ v, Within low high v → (Nat.toDigits 10 v.natAbs).length ≤ 4000 →
      operand low high (Numeral.text v) = .ok v := by
  refine ⟨fun v => ?_, fun misspelled => ?_, fun sign ds spelled long => ?_,
    fun sign ds spelled few outside => ?_, fun v within short => ?_⟩
  · rw [Effect.operand_eq_ok_iff, read_eq_ok_iff]
    constructor
    · rintro ⟨formed, short, value, within⟩
      obtain ⟨sign, ds, spelled⟩ := exists_spells formed
      exact ⟨sign, ds, spelled, spelled.short_iff.mp short, spelled.value_eq ▸ value, within⟩
    · rintro ⟨sign, ds, spelled, few, value, within⟩
      exact ⟨spelled.wellFormed, spelled.short_iff.mpr few, spelled.value_eq.trans value, within⟩
  · exact refuses_of_read fits (read_of_malformed fun formed => misspelled (exists_spells formed))
  · exact refuses_of_read fits (read_of_long spelled.wellFormed (mt spelled.short_iff.mp long))
  · rw [← spelled.value_eq] at outside
    exact refuses_of_read fits
      (read_of_outside spelled.wellFormed (spelled.short_iff.mpr few) outside)
  · exact Effect.operand_eq_ok_iff.mpr (read_text short within)

theorem operand_of_eight_bits :
    (∀ v, v ∈ some (-128 : Int) ∨ v ∈ some (127 : Int) → Numeral.Fits v) ∧
    operand (some (-128)) (some 127) "-00128" = .ok (-128) ∧
    Refuses (some (-128)) (some 127) "+128" "out of range [-128, 127]" ∧
    Refuses (some (-128)) (some 127) "\u0661" "not a valid integer" := by
  have fits : ∀ v, v ∈ some (-128 : Int) ∨ v ∈ some (127 : Int) → Numeral.Fits v := by
    rintro v (h | h) <;> cases h <;> decide +kernel
  have least : Spells "-00128" .minus ['0', '0', '1', '2', '8'] := ⟨rfl, by decide, by simp⟩
  have above : Spells "+128" .plus ['1', '2', '8'] := ⟨rfl, by decide, by simp⟩
  have misspelled : ¬∃ sign ds, Spells "\u0661" sign ds := by
    rintro ⟨sign, ds, spelled⟩
    have first := spelled.isDigit
    rw [← spelled.digits_eq] at first
    exact absurd (first '\u0661' (by decide)) (by decide)
  refine ⟨fits, ?_, ?_, ?_⟩
  · exact ((operand_reads_exactly _ _ fits "-00128").1 (-128)).mpr
      ⟨.minus, _, least, ⟨by decide, by decide⟩, by decide, by decide⟩
  · exact (operand_reads_exactly _ _ fits "+128").2.2.2.1 .plus _ above ⟨by decide, by decide⟩
      (by decide)
  · exact (operand_reads_exactly _ _ fits "\u0661").2.1 misspelled

end RegisterMachine.Literal
