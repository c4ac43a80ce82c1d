import RegisterMachine.Binary64

/-! The shortest decimal that reads back as a given binary number. Everything is compared in
integers, as fractions over one denominator, so no digit depends on rounding on the way. -/
namespace RegisterMachine.Binary64

/-- A positive number `value / unit` with the half-way points to its neighbours, which read back as
the number itself when its significand is even. -/
structure Interval where
  value : Nat
  below : Nat
  above : Nat
  unit : Nat
  closed : Bool

/-- Quarters of the last place keep the half-way points whole. The neighbour below the least
significand of a binade is only half as far away. -/
def interval (significand : Nat) (exponent : Int) : Interval :=
  let lower := if significand = leadingBit ∧ leastExponent < exponent then 1 else 2
  let scale := 1 <<< (exponent - 2).toNat
  { value := 4 * significand * scale
    below := (4 * significand - lower) * scale
    above := (4 * significand + 2) * scale
    unit := 1 <<< (2 - exponent).toNat
    closed := significand % 2 = 0 }

def Interval.leading (i : Interval) : Int :=
  if i.unit ≤ i.value then ((Nat.toDigits 10 (i.value / i.unit)).length : Int) - 1
  else -((Nat.toDigits 10 ((i.unit - 1) / i.value)).length : Int)

def Interval.holds (i : Interval) (numerator denominator : Nat) : Bool :=
  let scaled := numerator * i.unit
  if i.closed then i.below * denominator ≤ scaled && scaled ≤ i.above * denominator
  else i.below * denominator < scaled && scaled < i.above * denominator

/-- The multiple of `10 ^ place` that lies nearest to the number and reads back as it, if one does;
of two at the same distance the even one. -/
def Interval.multiple? (i : Interval) (place : Int) : Option Nat :=
  let up := Nat.pow 10 place.toNat
  let down := Nat.pow 10 (-place).toNat
  let least := i.value * down / (i.unit * up)
  let rest := 2 * (i.value * down - least * (i.unit * up))
  let first := i.holds (least * up) down
  let second := i.holds ((least + 1) * up) down
  let upper := i.unit * up < rest || (i.unit * up == rest && least % 2 == 1)
  if first && !(second && upper) then some least
  else if second then some (least + 1)
  else none

/-- Tries one digit, then two, and so on: `digits` is the number of tries left. -/
def Interval.search (i : Interval) (place : Int) : (digits : Nat) → Nat × Int
  | 0 => (0, place)
  | digits + 1 =>
    match i.multiple? place with
    | some n => (n, place)
    | none => i.search (place - 1) digits

def stripZeros (digits : List Char) : List Char × Nat :=
  let kept := (digits.reverse.dropWhile (· == '0')).reverse
  (kept, digits.length - kept.length)

/-- Digits and decimal exponent of the first of them; seventeen digits always read back. -/
def shortest (significand : Nat) (exponent : Int) : List Char × Int :=
  let i := interval significand exponent
  let (n, place) := i.search i.leading 17
  let (digits, dropped) := stripZeros (Nat.toDigits 10 n)
  (digits, place + dropped + digits.length - 1)

structure Layout where
  leastPositional : Int
  endPositional : Int
  exponentDigits : Nat

/-- Positional from 0.0001 up to 10^16, with at least two digits in an exponent. -/
def layout : Layout := ⟨-4, 16, 2⟩

def Layout.exponent (l : Layout) (e : Int) : List Char :=
  let digits := Nat.toDigits 10 e.natAbs
  'e' :: (if e < 0 then '-' else '+') :: List.replicate (l.exponentDigits - digits.length) '0' ++ digits

/-- A whole number keeps one zero behind the point, unless an exponent follows. -/
def Layout.write (l : Layout) (digits : List Char) (e : Int) : List Char :=
  if l.leastPositional ≤ e ∧ e < l.endPositional then
    if e < 0 then '0' :: '.' :: List.replicate (-e - 1).toNat '0' ++ digits
    else
      let whole := digits.take (e.toNat + 1)
      let fraction := digits.drop (e.toNat + 1)
      whole ++ List.replicate (e.toNat + 1 - whole.length) '0' ++
        '.' :: (if fraction.isEmpty then ['0'] else fraction)
  else
    digits.take 1 ++ (if digits.length ≤ 1 then [] else '.' :: digits.drop 1) ++ l.exponent e

def text : Binary64 → String
  | nan => "nan"
  | infinity negative => if negative then "-inf" else "inf"
  | finite negative significand exponent =>
    let digits :=
      if significand = 0 then ['0', '.', '0']
      else
        let (digits, e) := shortest significand exponent
        layout.write digits e
    String.ofList (if negative then '-' :: digits else digits)

end RegisterMachine.Binary64
