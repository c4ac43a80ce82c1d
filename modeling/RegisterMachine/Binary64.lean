/-! Binary floating-point numbers of 64 bits, held exactly: a sign, an integer significand and
a power of two, beside the infinities and the one value that is no number. -/
namespace RegisterMachine

inductive Binary64 where
  | nan
  | infinity (negative : Bool)
  | finite (negative : Bool) (significand : Nat) (exponent : Int)
  deriving DecidableEq, Repr

namespace Binary64

/-- The least exponent, which subnormal numbers share with the first normal ones. -/
def leastExponent : Int := -1074

def leadingBit : Nat := 1 <<< 52

/-- Reads the interchange layout: sign, eleven bits of exponent, fifty-two bits of fraction. -/
def ofBits (bits : UInt64) : Binary64 :=
  let negative := bits.toNat >>> 63 == 1
  let biased : Nat := bits.toNat >>> 52 % 2048
  let fraction := bits.toNat % leadingBit
  if biased = 2047 then if fraction = 0 then infinity negative else nan
  else if biased = 0 then finite negative fraction leastExponent
  else finite negative (leadingBit + fraction) (leastExponent + (biased : Int) - 1)

def isZero : Binary64 → Bool
  | finite _ significand _ => significand == 0
  | _ => false

/-- The fraction is dropped, towards zero; what is not finite has no integer. -/
def truncate? : Binary64 → Option Int
  | finite negative significand exponent =>
    let whole : Nat :=
      if 0 ≤ exponent then significand <<< exponent.toNat
      else significand >>> (-exponent).toNat
    some (if negative then -(whole : Int) else whole)
  | _ => none

end Binary64
end RegisterMachine
