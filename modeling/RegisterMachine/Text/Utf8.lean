import RegisterMachine.Text.Quoted

/-! UTF-8, read one byte at a time. The first fault is reported with the bytes of the broken
character that were still good, and with the text that came before it. -/
namespace RegisterMachine.Text.Utf8

inductive Reason where
  | badStart
  | badContinuation
  | unexpectedEnd
  deriving DecidableEq, Repr

/-- A broken character: the offset of its first byte and the bytes it could still have begun with. -/
structure Fault where
  start : Nat
  bytes : List UInt8
  reason : Reason
  deriving DecidableEq, Repr

/-- A character under way: the bytes read (last one first), the bits they carry, the bytes still
owed, and the range that the next of them must lie in. -/
structure Pending where
  start : Nat
  read : List UInt8
  bits : Nat
  owed : Nat
  low : UInt8 := 0x80
  high : UInt8 := 0xBF

/-- The range of the second byte excludes overlong forms, surrogates and what lies past U+10FFFF. -/
def lead? (start : Nat) (b : UInt8) : Option Pending :=
  if b < 0x80 then some ⟨start, [b], b.toNat, 0, 0x80, 0xBF⟩
  else if b < 0xC2 then none
  else if b < 0xE0 then some ⟨start, [b], b.toNat - 0xC0, 1, 0x80, 0xBF⟩
  else if b < 0xF0 then
    some ⟨start, [b], b.toNat - 0xE0, 2, if b = 0xE0 then 0xA0 else 0x80, if b = 0xED then 0x9F else 0xBF⟩
  else if b < 0xF5 then
    some ⟨start, [b], b.toNat - 0xF0, 3, if b = 0xF0 then 0x90 else 0x80, if b = 0xF4 then 0x8F else 0xBF⟩
  else none

def Pending.add (p : Pending) (b : UInt8) : Pending :=
  ⟨p.start, b :: p.read, p.bits * 64 + (b.toNat - 0x80), p.owed - 1, 0x80, 0xBF⟩

/-- Reads on from an offset, with a character under way or none, after the text `done` (last
character first). -/
def scan (done : Chars) (pending : Option Pending) (offset : Nat) :
    List UInt8 → Chars × Option Fault
  | [] => (done.reverse, pending.map fun p => ⟨p.start, p.read.reverse, .unexpectedEnd⟩)
  | b :: rest =>
    let next : Except Fault Pending := match pending with
      | none => match lead? offset b with
        | some p => .ok p
        | none => .error ⟨offset, [b], .badStart⟩
      | some p =>
        if p.low ≤ b ∧ b ≤ p.high then .ok (p.add b)
        else .error ⟨p.start, p.read.reverse, .badContinuation⟩
    match next with
    | .error fault => (done.reverse, some fault)
    | .ok p =>
      if p.owed = 0 then scan (Char.ofNat p.bits :: done) none (offset + 1) rest
      else scan done (some p) (offset + 1) rest

def read (bytes : ByteArray) : String × Option Fault :=
  let (text, fault) := scan [] none 0 bytes.toList
  (String.ofList text, fault)

def decode (bytes : ByteArray) : Except Fault String :=
  match read bytes with
  | (text, none) => .ok text
  | (_, some fault) => .error fault

def Reason.message : Reason → String
  | .badStart => "invalid start byte"
  | .badContinuation => "invalid continuation byte"
  | .unexpectedEnd => "unexpected end of data"

def Fault.place (f : Fault) : String :=
  match f.bytes with
  | [b] => "byte 0x" ++ String.ofList (hex 2 b.toNat) ++ " in position " ++ f.start.repr
  | bytes => "bytes in position " ++ f.start.repr ++ "-" ++ (f.start + bytes.length - 1).repr

def Fault.message (f : Fault) : String :=
  "'utf-8' codec can't decode " ++ f.place ++ ": " ++ f.reason.message

end RegisterMachine.Text.Utf8
