import RegisterMachine.Text.DecimalDigit

/-! Switches, and how a word of the command line is told to be one. A word that starts with a dash
names a switch by one of its spellings, by the start of a long spelling, or by a short spelling
with more text joined to it. -/
namespace RegisterMachine.CommandLine

inductive Switch where
  | help
  | output
  | registers
  | wordBits
  | onError
  | noComments
  | showRegisters
  | dump
  | sample
  | interactive
  | verbose
  | logFile
  | version
  deriving DecidableEq, Repr

namespace Switch

def all : List Switch :=
  [help, output, registers, wordBits, onError, noComments, showRegisters, dump, sample, interactive,
    verbose, logFile, version]

theorem mem_all (s : Switch) : s ∈ all := by cases s <;> decide

def spellings : Switch → List String
  | help => ["-h", "--help"]
  | output => ["-o", "--output"]
  | registers => ["--registers"]
  | wordBits => ["--word-bits"]
  | onError => ["--on-error"]
  | noComments => ["--no-comments"]
  | showRegisters => ["--regs"]
  | dump => ["--dump"]
  | sample => ["--example"]
  | interactive => ["--interactive", "-i"]
  | verbose => ["--verbose", "-v"]
  | logFile => ["--log-file"]
  | version => ["--version"]

def takesWord : Switch → Bool
  | output | registers | wordBits | onError | logFile => true
  | _ => false

def title (s : Switch) : String := "/".intercalate s.spellings

def ofSpelling? (text : String) : Option Switch := all.find? fun s => s.spellings.contains text

end Switch

structure Mention where
  switch : Switch
  spelling : String
  attached : Option String := none
  deriving DecidableEq, Repr

def isLong (spelling : String) : Bool := "--".toList.isPrefixOf spelling.toList

def splitAtEquals (text : String) : Option (String × String) :=
  match text.toList.dropWhile (· ≠ '=') with
  | [] => none
  | _ :: after => some (String.ofList (text.toList.takeWhile (· ≠ '=')), String.ofList after)

namespace Mention

def all : List Mention := Switch.all.flatMap fun s => s.spellings.map fun spelling => ⟨s, spelling, none⟩

def ofSpelling? (text : String) : Option Mention := all.find? (·.spelling = text)

def assigned? (text : String) : Option Mention := do
  let (name, value) ← splitAtEquals text
  let m ← ofSpelling? name
  return { m with attached := some value }

/-- The switches that a shortened long spelling, or a short one with text joined to it, may mean. -/
def candidates (text : String) : List Mention :=
  if isLong text then
    let (start, value) := match splitAtEquals text with
      | some (start, value) => (start, some value)
      | none => (text, none)
    (all.filter fun m => start.toList.isPrefixOf m.spelling.toList).map fun m =>
      { m with attached := value }
  else
    let name := String.ofList (text.toList.take 2)
    (all.filter (·.spelling = name)).map fun m =>
      { m with attached := some (String.ofList (text.toList.drop 2)) }

end Mention

/-- A dash and decimal digits of any script, with or without a point before some of them. A line
feed at the end is overlooked. -/
def isNegativeNumber (text : String) : Bool :=
  match text.toList with
  | '-' :: cs =>
    let cs := if cs.getLast? = some '\n' then cs.dropLast else cs
    let isDigit (c : Char) : Bool := (Text.decimalValue? c).isSome
    match cs.dropWhile isDigit with
    | [] => !cs.isEmpty
    | '.' :: fraction => !fraction.isEmpty && fraction.all isDigit
    | _ => false
  | _ => false

inductive Word where
  | plain (text : String)
  | separator
  | mention (mention : Mention)
  | stray (text : String)
  deriving DecidableEq, Repr

/-- A word that may mean several switches is refused with the spellings it may mean. A word that
means none is plain if it is a lone dash, a negative number or holds a space, and else a stray. -/
def Word.ofString (text : String) : Except (List String) Word :=
  if text.toList.head? ≠ some '-' then .ok (.plain text)
  else match Mention.ofSpelling? text with
    | some m => .ok (.mention m)
    | none =>
      if text = "-" then .ok (.plain text)
      else match Mention.assigned? text with
        | some m => .ok (.mention m)
        | none => match Mention.candidates text with
          | [m] => .ok (.mention m)
          | [] =>
            if isNegativeNumber text || text.toList.contains ' ' then .ok (.plain text)
            else .ok (.stray text)
          | several => .error (several.map Mention.spelling)

end RegisterMachine.CommandLine
