import RegisterMachine.Breakdown
import RegisterMachine.Config.Draft
import RegisterMachine.Files.Path
import RegisterMachine.Record
import RegisterMachine.Text.Utf8.Blocks

/-! The console that a command line works at: files, an input, two outputs, and a log file that
records are added to as they come up. -/
namespace RegisterMachine

/-- The clock tells the times at which records come up, by their number in the journal. -/
structure Console where
  files : Files
  input : ByteArray
  clock : Nat → String
  output : String := ""
  errors : String := ""
  log : Option Location := none
  journal : Journal := #[]
  threshold : Level := .warning

namespace Console

inductive Failure where
  | path (refusal : Files.Refusal)
  | config (failure : Config.Failure)
  | work (reason : Breakdown)
  deriving DecidableEq, Repr

def Failure.message : Failure → String
  | path refusal => refusal.message
  | config failure => failure.message
  | work reason => reason.message

def say (c : Console) (text : String) : Console := { c with output := c.output ++ text }

def complain (c : Console) (text : String) : Console := { c with errors := c.errors ++ text }

/-- The next records as they stand in a log file, each with the time that it comes up at. -/
def stamped (c : Console) (records : List Record) : String :=
  String.join (records.mapIdx fun i r => r.line (c.clock (c.journal.size + i)) ++ "\n")

def note (c : Console) (records : List Record) : Console :=
  { c with
    journal := c.journal ++ records
    files := match c.log with
      | none => c.files
      | some place => c.files.appendAt place (c.stamped records).toUTF8 }

def shown (c : Console) : List Record :=
  c.journal.toList.filter fun r => c.threshold.rank ≤ r.level.rank

/-- Makes the folders that a log file lies in and opens it. An empty name asks for no log file. One
that is open from before is closed first, whatever comes of it. -/
def openLog (c : Console) (name : String) : Console × Except Failure Unit :=
  let c := { c with log := none }
  if name = "" then (c, .ok ())
  else
    let path := Files.Path.ofString name
    match c.files.ensureFolders path.root path.parent.names.reverse with
    | (files, .error e) => ({ c with files }, .error (.path e))
    | (files, .ok ()) =>
      match files.openAt (path.absolute files.home) with
      | .error e => ({ c with files }, .error (.path e))
      | .ok (files, place) =>
        ({ c with files, log := some place }.note
          [⟨.debug, .program, "setup_logging:59", "Log file: " ++ path.text⟩], .ok ())

inductive ReadFault where
  | missing
  | problem (problem : Files.Problem) (path : String)
  | undecodable (fault : Text.Utf8.Fault)
  deriving DecidableEq, Repr

def ReadFault.message (name : String) : ReadFault → String
  | missing => "Error: File not found: " ++ name
  | problem p path => "Error reading " ++ name ++ ": " ++ (Files.Refusal.problem p path).message
  | undecodable fault => "Error reading " ++ name ++ ": " ++ fault.message

def decode (bytes : ByteArray) : Except ReadFault String :=
  match Text.Utf8.decode bytes with
  | .ok text => .ok (Text.unifyEnds text)
  | .error fault => .error (.undecodable fault)

def fetch (c : Console) (name : String) : Except Failure (Except ReadFault String) :=
  if name = "-" then .ok (decode c.input)
  else match c.files.read name with
    | .ok bytes => .ok (decode bytes)
    | .error .nullByte => .error (.path .nullByte)
    | .error (.problem .missing _) => .ok (.error .missing)
    | .error (.problem p path) => .ok (.error (.problem p path))

end Console
end RegisterMachine
