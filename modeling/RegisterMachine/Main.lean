import RegisterMachine.CommandLine
import Std.Time.Format

/-! The program itself. What a command line may touch is read from the disk first and written back
last; only a session is held line by line. -/
namespace RegisterMachine.Main

def pathText (place : Location) : String := "/" ++ "/".intercalate place

/-- Whatever can be opened and not read is a folder. -/
def probe (place : Location) : IO (Option Entry) := do
  match ← (IO.FS.Handle.mk (pathText place) .read).toBaseIO with
  | .error _ => return none
  | .ok handle =>
    match ← handle.readBinToEnd.toBaseIO with
    | .ok content => return some (.file content)
    | .error _ => return some .folder

def load (home : Location) (paths : List String) : IO Files := do
  let places := (paths.flatMap (Files.around home)).filter (· ≠ [])
  let mut files : Files := { home }
  for place in places do
    if (files.find? place).isNone then
      if let some e ← probe place then files := files.put place e
  return files

/-- Oldest entries first, so that a folder is there before what it holds. -/
def save (before after : Files) : IO Unit := do
  for (place, e) in after.entries.reverse do
    if before.find? place ≠ some e then
      match e with
      | .folder => IO.FS.createDir (pathText place)
      | .file content => IO.FS.writeBinFile (pathText place) content

def now : IO String := do
  return (← Std.Time.PlainDateTime.now).format "uuuu-MM-dd HH:mm:ss"

/-- Holds a session at the keyboard. What it writes is on the screen by the end, so the transcript
has no text of its own. -/
def talk (config : Config) : IO Session.Transcript := do
  let input ← IO.getStdin
  let output ← IO.getStdout
  let mut s := Session.ofConfig config
  let mut failure := none
  output.putStr s.greeting
  repeat
    output.putStr s.prompt
    output.flush
    let line ← input.getLine
    if line.isEmpty then
      output.putStr "\n"
      break
    match s.answer line with
    | (t, .text text) =>
      s := t
      output.putStr text
    | (t, .over) =>
      s := t
      break
    | (t, .broken reason) =>
      s := t
      failure := some reason
      break
  match failure with
  | some reason => return ⟨s, #[], .error reason⟩
  | none => return ⟨s.close, #[], .ok s.runs⟩

def finish (before : Files) (o : CommandLine.Outcome) : IO UInt32 := do
  let (c, outcome) := o
  save before c.files
  (← IO.getStdout).putStr c.output
  let errors ← IO.getStderr
  for r in c.shown do errors.putStrLn (Text.alignLeft 8 r.level.name ++ " " ++ r.message)
  errors.putStr c.errors
  match outcome with
  | .ok code => return code.number
  | .error failure =>
    errors.putStrLn failure.message
    return 1

end RegisterMachine.Main

open RegisterMachine in
def main (words : List String) : IO UInt32 := do
  let home := (Files.names (toString (← IO.currentDir))).filter (· ≠ "")
  let files ← Main.load home (CommandLine.paths words)
  let input ← if CommandLine.readsInput words then (← IO.getStdin).readBinToEnd else pure .empty
  let time ← Main.now
  let c : Console := { files, input, clock := fun _ => time }
  match CommandLine.start c words with
  | (c, .over outcome) => Main.finish files (c, outcome)
  | (c, .session config) => do Main.finish files (CommandLine.closeSession c (← Main.talk config))
