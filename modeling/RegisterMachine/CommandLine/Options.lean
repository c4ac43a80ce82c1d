import RegisterMachine.CommandLine.Switch
import RegisterMachine.Config.Draft
import RegisterMachine.Text.Quoted

/-! The options of a command line. The words are told apart first, all of them; then they are read
from left to right, and of two settings of one option the later counts. -/
namespace RegisterMachine.CommandLine

/-- What a switch is given: a word, or nothing where the word joined to it is a separator. -/
inductive Argument where
  | word (text : String)
  | nothing
  deriving DecidableEq, Repr

namespace Argument

def ofJoined (text : String) : Argument := if text = "--" then nothing else word text

def text : Argument → String
  | word text => text
  | nothing => ""

def datum : Argument → Datum
  | word text => .text text
  | nothing => .list []

end Argument

/-- The policy is missing if its switch was given nothing. -/
structure Options where
  program : Option String := none
  output : Option Argument := none
  registers : Option Argument := none
  wordBits : Option Argument := none
  policy : Option Policy := some .skip
  comments : Bool := true
  showRegisters : Bool := false
  dump : Bool := false
  sample : Bool := false
  interactive : Bool := false
  verbose : Bool := false
  logFile : Option Argument := none
  deriving DecidableEq, Repr

inductive Misuse where
  | ambiguous (word : String) (spellings : List String)
  | wordMissing (switch : Switch)
  | wordUnused (switch : Switch) (attached : String)
  | unknownPolicy (word : String)
  | unexpected (words : List String)
  deriving DecidableEq, Repr

def Misuse.message : Misuse → String
  | ambiguous word spellings =>
    "ambiguous option: " ++ word ++ " could match " ++ ", ".intercalate spellings
  | wordMissing switch => "argument " ++ switch.title ++ ": expected one argument"
  | wordUnused switch attached =>
    "argument " ++ switch.title ++ ": ignored explicit argument " ++ Text.quoted attached
  | unknownPolicy word =>
    "argument " ++ Switch.onError.title ++ ": invalid choice: " ++ Text.quoted word ++
      " (choose from " ++ ", ".intercalate (Policy.all.map fun p => Text.quoted p.name) ++ ")"
  | unexpected words => "unrecognized arguments: " ++ " ".intercalate words

inductive Stop where
  | help
  | version
  | misuse (misuse : Misuse)
  deriving DecidableEq, Repr

structure Setting where
  switch : Switch
  argument : Option Argument := none
  deriving DecidableEq, Repr

def Setting.wantsWord (s : Setting) : Bool := s.switch.takesWord && s.argument.isNone

def Setting.supply (s : Setting) (word : String) : Setting :=
  if s.wantsWord then { s with argument := some (.word word) } else s

/-- The letters joined to a short switch are its word, or else short switches themselves. -/
def Setting.ofLetters (switch : Switch) : List Char → Except Misuse (List Setting)
  | [] => .ok [⟨switch, none⟩]
  | letter :: rest =>
    if switch.takesWord then .ok [⟨switch, some (.ofJoined (String.ofList (letter :: rest)))⟩]
    else match Switch.ofSpelling? (String.ofList ['-', letter]) with
      | some next => (ofLetters next rest).map (⟨switch, none⟩ :: ·)
      | none => .error (.wordUnused switch (String.ofList (letter :: rest)))

def Mention.settings (m : Mention) : Except Misuse (List Setting) :=
  match m.attached with
  | none => .ok [⟨m.switch, none⟩]
  | some text =>
    if m.switch.takesWord then .ok [⟨m.switch, some (.ofJoined text)⟩]
    else if isLong m.spelling || text.isEmpty then .error (.wordUnused m.switch text)
    else Setting.ofLetters m.switch text.toList

namespace Options

def set (o : Options) (s : Setting) : Except Stop Options :=
  match s.switch with
  | .help => .error .help
  | .version => .error .version
  | .output => .ok { o with output := s.argument }
  | .registers => .ok { o with registers := s.argument }
  | .wordBits => .ok { o with wordBits := s.argument }
  | .logFile => .ok { o with logFile := s.argument }
  | .onError => match s.argument with
    | some (.word text) => match Policy.ofName? text with
      | some policy => .ok { o with policy := some policy }
      | none => .error (.misuse (.unknownPolicy text))
    | _ => .ok { o with policy := none }
  | .noComments => .ok { o with comments := false }
  | .showRegisters => .ok { o with showRegisters := true }
  | .dump => .ok { o with dump := true }
  | .sample => .ok { o with sample := true }
  | .interactive => .ok { o with interactive := true }
  | .verbose => .ok { o with verbose := true }

end Options

/-- The place of the program's name: still open, filled by the last word, or closed. -/
inductive Slot where
  | vacant
  | fresh
  | closed
  deriving DecidableEq, Repr

def Slot.next : Slot → Slot
  | vacant => vacant
  | _ => closed

def wordsOfStrings : List String → Except Misuse (List Word)
  | [] => .ok []
  | text :: rest =>
    if text = "--" then .ok (.separator :: rest.map .plain)
    else match Word.ofString text with
      | .error spellings => .error (.ambiguous text spellings)
      | .ok word => (wordsOfStrings rest).map (word :: ·)

/-- The first plain word is the program's name. A separator goes unnoticed before it and directly
after it; everywhere else it is a word too many, like every further plain word and every stray.
A switch that still wants a word takes the next one, which must be plain. -/
def readWords (o : Options) (slot : Slot) (extra : List String) :
    List Word → Except Stop Options
  | [] => if extra.isEmpty then .ok o else .error (.misuse (.unexpected extra))
  | .plain text :: rest =>
    match slot with
    | .vacant => readWords { o with program := some text } .fresh extra rest
    | _ => readWords o .closed (extra ++ [text]) rest
  | .separator :: rest =>
    match slot with
    | .closed => readWords o .closed (extra ++ ["--"]) rest
    | _ => readWords o slot.next extra rest
  | .stray text :: rest => readWords o slot.next (extra ++ [text]) rest
  | .mention m :: rest =>
    match m.settings with
    | .error e => .error (.misuse e)
    | .ok settings =>
      match settings.find? Setting.wantsWord, rest with
      | none, rest => do readWords (← settings.foldlM Options.set o) slot.next extra rest
      | some _, .plain text :: rest => do
        let settings := settings.map (·.supply text)
        readWords (← settings.foldlM Options.set o) slot.next extra rest
      | some s, _ => .error (.misuse (.wordMissing s.switch))

def Options.ofStrings (words : List String) : Except Stop Options :=
  match wordsOfStrings words with
  | .error e => .error (.misuse e)
  | .ok words => readWords {} .vacant [] words

def Options.config (o : Options) : Except Config.Failure Config :=
  let given (key : String) (argument : Option Argument) : List (String × Datum) :=
    argument.toList.map fun a => (key, a.datum)
  let policy : Argument := (o.policy.map fun p => .word p.name).getD .nothing
  Config.ofFields ([("on_error", policy.datum), ("allow_comments", .bool o.comments)] ++
    given "registers" o.registers ++ given "word_bits" o.wordBits)

end RegisterMachine.CommandLine
