import RegisterMachine.Config
import RegisterMachine.Datum
import RegisterMachine.Numeral.Spelling

/-! Configurations made from plain data. A draft holds the four settings unchecked; accepting it
tests them in a fixed order and names the first that is wrong. A draft can be written down
directly or read from named fields, where more spellings are allowed. -/
namespace RegisterMachine.Config

inductive Rejection where
  | unknownKeys (keys : List String)
  | emptyList
  | noRegisters
  | invalidName (written : String)
  | duplicateNames (names : List String)
  | bitsNotInteger (written : String)
  | bitsTooFew (written : String)
  | unknownPolicy (written : String)
  deriving DecidableEq, Repr

/-- A draft is rejected, or checking it comes to nothing: an integer too long to write, a width
that is infinite, names that are not a list. -/
inductive Failure where
  | rejected (reason : Rejection)
  | overlong
  | infinite
  | notIterable (typeName : String)
  deriving DecidableEq, Repr

def Rejection.message : Rejection → String
  | unknownKeys keys => "Unknown config keys: " ++ ", ".intercalate keys
  | emptyList => "Register list is empty"
  | noRegisters => "At least one register name is required"
  | invalidName written => "Invalid register name: " ++ written
  | duplicateNames names => "Duplicate register names: " ++ ", ".intercalate names
  | bitsNotInteger written => "word_bits must be an integer, got " ++ written
  | bitsTooFew written => "word_bits must be an int >= 2 or None, got " ++ written
  | unknownPolicy written =>
    "Unknown error policy " ++ written ++ " (expected one of: " ++
      ", ".intercalate (Policy.all.map Policy.name) ++ ")"

def Failure.message : Failure → String
  | rejected reason => reason.message
  | overlong => Numeral.Excess.written.message
  | infinite => "cannot convert float infinity to integer"
  | notIterable typeName => "'" ++ typeName ++ "' object is not iterable"

/-- A datum can only be complained about if it can be written. -/
def refuse (d : Datum) (reason : String → Rejection) : Failure :=
  match d.written? with
  | some written => .rejected (reason written)
  | none => .overlong

/-- Surrounding blanks and empty pieces are dropped, whatever the list is made of. -/
def readNames (d : Datum) : Except Failure (List String) := do
  let pieces ← match d with
    | .text s => .ok (s.toList.splitOn ',' |>.map fun piece => Datum.text (String.ofList piece))
    | d => match d.elements? with
      | some items => .ok items
      | none => .error (.notIterable d.typeName)
  let shown ← pieces.mapM fun piece => match piece.shown? with
    | some s => .ok (Text.trim s)
    | none => .error .overlong
  match shown.filter (· ≠ "") with
  | [] => .error (.rejected .emptyList)
  | names => .ok names

def readPolicy : Datum → Except Failure Policy
  | .policy p => .ok p
  | d => match d.shown? with
    | none => .error .overlong
    | some s => match Policy.read? s with
      | some p => .ok p
      | none => .error (refuse d .unknownPolicy)

/-- Nothing, every zero and the texts `0` and the empty one ask for unbounded registers. -/
def asksUnbounded : Datum → Bool
  | .null => true
  | .bool b => !b
  | .int v => v == 0
  | .float x => x.isZero
  | .text s => s == "0" || s == ""
  | _ => false

def readBits (d : Datum) : Except Failure Datum :=
  if asksUnbounded d then .ok .null
  else match d with
    | .bool _ => .ok (.int 1)
    | .int v => .ok (.int v)
    | .float (.infinity _) => .error .infinite
    | .float x => match x.truncate? with
      | some v => .ok (.int v)
      | none => .error (refuse d .bitsNotInteger)
    | .text s => match Numeral.read? s with
      | some v => .ok (.int v)
      | none => .error (refuse d .bitsNotInteger)
    | d => .error (refuse d .bitsNotInteger)

structure Draft where
  names : Datum := .list (defaultNames.map Datum.text)
  bits : Datum := .int 32
  policy : Datum := .policy .skip
  comments : Bool := true

namespace Draft

def checkName (d : Datum) : Except Failure { s : String // isRegisterName s = true } :=
  match d with
  | .text s => if h : isRegisterName s = true then .ok ⟨s, h⟩ else .error (refuse d .invalidName)
  | d => .error (refuse d .invalidName)

def checkWidth : Datum → Except Failure Width
  | .null => .ok .unbounded
  | .int v => match Width.ofBits? v with
    | some w => .ok w
    | none => .error (refuse (.int v) .bitsTooFew)
  | d => .error (refuse d .bitsTooFew)

/-- Names first, one by one and then against each other; then the width; then the policy. -/
def accept (draft : Draft) : Except Failure Config :=
  match draft.names.elements? with
  | none => .error (.notIterable draft.names.typeName)
  | some [] => .error (.rejected .noRegisters)
  | some (d :: rest) => do
    let first ← checkName d
    let others ← rest.mapM checkName
    if distinct : ((first :: others).map Subtype.val).Nodup then
      let width ← checkWidth draft.bits
      let policy ← readPolicy draft.policy
      return {
        names := (first :: others).map Subtype.val
        width, policy
        comments := draft.comments
        names_ne_nil := by simp
        names_nodup := distinct
        names_valid := fun n h => by
          obtain ⟨name, _, rfl⟩ := List.mem_map.mp h
          exact name.property }
    else .error (.rejected (.duplicateNames ((first :: others).map Subtype.val)))

def keys : List String := ["registers", "word_bits", "on_error", "allow_comments"]

/-- Fields that are missing, and all but the width when they are null, keep their defaults. -/
def ofFields (fields : List (String × Datum)) : Except Failure Draft := do
  match (fields.map Prod.fst).filter (· ∉ keys) with
  | [] => pure ()
  | unknown => .error (.rejected (.unknownKeys (unknown.mergeSort fun a b => decide (a ≤ b))))
  let draft : Draft := {}
  let names ← match fields.lookup "registers" with
    | none | some .null => .ok draft.names
    | some d => (readNames d).map fun names => .list (names.map Datum.text)
  let bits ← match fields.lookup "word_bits" with
    | none => .ok draft.bits
    | some d => readBits d
  let policy ← match fields.lookup "on_error" with
    | none | some .null => .ok draft.policy
    | some d => (readPolicy d).map Datum.policy
  let comments := match fields.lookup "allow_comments" with
    | none | some .null => draft.comments
    | some d => d.isTrue
  return { names, bits, policy, comments }

end Draft

def ofFields (fields : List (String × Datum)) : Except Failure Config :=
  Draft.ofFields fields >>= Draft.accept

end RegisterMachine.Config
