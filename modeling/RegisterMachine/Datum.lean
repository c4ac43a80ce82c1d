import RegisterMachine.Binary64.Shortest
import RegisterMachine.Numeral
import RegisterMachine.Policy
import RegisterMachine.Text.Quoted

/-! Plain data, as a configuration may hold before it is checked. A datum has a written form, in
which strings are quoted, and a shown form, in which a string stands for itself; a datum that
holds an integer too long to write has neither. -/
namespace RegisterMachine

inductive Datum where
  | null
  | bool (value : Bool)
  | int (value : Int)
  | float (value : Binary64)
  | text (value : String)
  | list (items : List Datum)
  | object (fields : List (String × Datum))
  | policy (value : Policy)

namespace Datum

mutual

def written? : Datum → Option String
  | null => some "None"
  | bool true => some "True"
  | bool false => some "False"
  | int v => Numeral.write? v
  | float v => some v.text
  | text s => some (Text.quoted s)
  | list items => (writtenItems? items).map fun parts => "[" ++ ", ".intercalate parts ++ "]"
  | object fields =>
    (writtenFields? fields).map fun parts => "\x7b" ++ ", ".intercalate parts ++ "\x7d"
  | policy .skip => some "<ErrorPolicy.SKIP: 'skip'>"
  | policy .abort => some "<ErrorPolicy.ABORT: 'abort'>"

def writtenItems? : List Datum → Option (List String)
  | [] => some []
  | d :: rest => do return (← written? d) :: (← writtenItems? rest)

def writtenFields? : List (String × Datum) → Option (List String)
  | [] => some []
  | (key, d) :: rest => do
    return (Text.quoted key ++ ": " ++ (← written? d)) :: (← writtenFields? rest)

end

def shown? : Datum → Option String
  | text s => some s
  | policy .skip => some "ErrorPolicy.SKIP"
  | policy .abort => some "ErrorPolicy.ABORT"
  | d => d.written?

@[simp] theorem shown?_text (s : String) : shown? (text s) = some s := rfl

/-- Null, zeros and whatever is empty count as false. -/
def isTrue : Datum → Bool
  | null => false
  | bool b => b
  | int v => v != 0
  | float v => !v.isZero
  | text s => !s.isEmpty
  | list items => !items.isEmpty
  | object fields => !fields.isEmpty
  | policy _ => true

/-- What a datum gives when it is gone through one by one: a string its characters, an object its
keys. -/
def elements? : Datum → Option (List Datum)
  | text s => some (s.toList.map fun c => text (String.singleton c))
  | list items => some items
  | object fields => some (fields.map fun field => text field.1)
  | _ => none

def typeName : Datum → String
  | null => "NoneType"
  | bool _ => "bool"
  | int _ => "int"
  | float _ => "float"
  | text _ => "str"
  | list _ => "list"
  | object _ => "dict"
  | policy _ => "ErrorPolicy"

end Datum
end RegisterMachine
