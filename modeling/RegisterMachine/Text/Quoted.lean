import RegisterMachine.Text.Blank
import RegisterMachine.Text.Unprintable

/-! Quoted text: a string as it is shown inside a message, between quotes and with every
character that would not show written as an escape. -/
namespace RegisterMachine.Text

/-- Lower-case hexadecimal digits, filled up with zeros to a width. -/
def hex (width n : Nat) : Chars :=
  let digits := Nat.toDigits 16 n
  List.replicate (width - digits.length) '0' ++ digits

namespace Quoted

def apostrophe : Char := '\x27'

def doubleQuote : Char := '\x22'

def backslash : Char := '\x5c'

/-- Apostrophes are the usual quotes; a text with apostrophes and no double quote takes the other. -/
def mark (cs : Chars) : Char :=
  if cs.contains apostrophe && !cs.contains doubleQuote then doubleQuote else apostrophe

/-- The short escapes come first, then the shortest of the three numeric ones that fits. -/
def escape (mark c : Char) : Chars :=
  if c = mark ∨ c = backslash then [backslash, c]
  else if c = '\n' then [backslash, 'n']
  else if c = '\r' then [backslash, 'r']
  else if c = '\t' then [backslash, 't']
  else if isPrintable c then [c]
  else if c.toNat < 0x100 then backslash :: 'x' :: hex 2 c.toNat
  else if c.toNat < 0x10000 then backslash :: 'u' :: hex 4 c.toNat
  else backslash :: 'U' :: hex 8 c.toNat

def encode (cs : Chars) : Chars := mark cs :: cs.flatMap (escape (mark cs)) ++ [mark cs]

end Quoted

def quoted (s : String) : String := String.ofList (Quoted.encode s.toList)

end RegisterMachine.Text
