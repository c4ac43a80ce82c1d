import RegisterMachine.Numeral
import RegisterMachine.Text.Blank

/-! Integer operands: an optional sign and ASCII digits, nothing else. A literal is limited in
length before it is limited in value, so no text of unbounded size becomes a number. -/
namespace RegisterMachine.Literal
open Text

/-- The most digits a literal may have once its leading zeros are dropped. -/
def maxSignificant : Nat := 4000

/-- What is wrong with a token. The last case is a defect that a caller describes in words. -/
inductive Defect where
  | malformed
  | tooLong
  | outOfRange (low high : Option Int)
  | other (detail : String)
  deriving DecidableEq, Repr

def bound : Option Int → String
  | none => "None"
  | some v => Numeral.text v

def Defect.detail : Defect → String
  | malformed => "not a valid integer"
  | tooLong => "too long"
  | outOfRange low high => "out of range [" ++ bound low ++ ", " ++ bound high ++ "]"
  | other detail => detail

def Defect.Writable : Defect → Prop
  | outOfRange low high => (∀ v ∈ low, Numeral.Fits v) ∧ (∀ v ∈ high, Numeral.Fits v)
  | _ => True

instance : (d : Defect) → Decidable d.Writable
  | .outOfRange _ _ => inferInstanceAs (Decidable (_ ∧ _))
  | .malformed | .tooLong | .other _ => inferInstanceAs (Decidable True)

def isNegative : Chars → Bool
  | '-' :: _ => true
  | _ => false

def digits : Chars → Chars
  | '+' :: cs => cs
  | '-' :: cs => cs
  | cs => cs

def WellFormed (cs : Chars) : Prop := digits cs ≠ [] ∧ ∀ c ∈ digits cs, c.isDigit = true

-- the digits are gone through, not all the characters that there are
instance (cs : Chars) : Decidable (WellFormed cs) :=
  haveI : Decidable (∀ c ∈ digits cs, c.isDigit = true) := List.decidableBAll _ (digits cs)
  inferInstanceAs (Decidable (_ ∧ _))

def significant (cs : Chars) : Chars := (digits cs).dropWhile (· == '0')

/-- Leading zeros count towards the limit of numerals, though not towards the limit of literals. -/
def Short (cs : Chars) : Prop :=
  (significant cs).length ≤ maxSignificant ∧ (digits cs).length ≤ Numeral.maxDigits

instance (cs : Chars) : Decidable (Short cs) := inferInstanceAs (Decidable (_ ∧ _))

def value (cs : Chars) : Int :=
  let magnitude : Nat := Nat.ofDigitChars 10 (digits cs) 0
  if isNegative cs then -(magnitude : Int) else magnitude

def Within (low high : Option Int) (v : Int) : Prop := (∀ l ∈ low, l ≤ v) ∧ (∀ h ∈ high, v ≤ h)

instance (low high : Option Int) (v : Int) : Decidable (Within low high v) :=
  inferInstanceAs (Decidable (_ ∧ _))

@[simp] theorem within_none (v : Int) : Within none none v := by simp [Within]

@[simp] theorem within_some (low high v : Int) :
    Within (some low) (some high) v ↔ low ≤ v ∧ v ≤ high := by simp [Within]

/-- Grammar first, then length, then range. -/
def read (low high : Option Int) (token : String) : Except Defect Int :=
  let cs := token.toList
  if ¬WellFormed cs then .error .malformed
  else if ¬Short cs then .error .tooLong
  else if Within low high (value cs) then .ok (value cs)
  else .error (.outOfRange low high)

end RegisterMachine.Literal
