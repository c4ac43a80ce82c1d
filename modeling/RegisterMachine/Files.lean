import RegisterMachine.Text.Quoted

/-! Files and folders: a tree of named entries with a working folder, and what can go wrong when a
path is followed through it. Every operation gives the tree it leaves behind, also when it fails. -/
namespace RegisterMachine

/-- The names that lead to an entry from the root. -/
abbrev Location := List String

inductive Entry where
  | file (content : ByteArray)
  | folder

instance : DecidableEq Entry
  | .file a, .file b =>
    match ByteArray.instDecidableEq a b with
    | isTrue h => isTrue (congrArg Entry.file h)
    | isFalse h => isFalse fun e => h (Entry.file.inj e)
  | .folder, .folder => isTrue rfl
  | .file _, .folder => isFalse nofun
  | .folder, .file _ => isFalse nofun

structure Files where
  home : Location := []
  entries : List (Location × Entry) := []

namespace Files

inductive Problem where
  | missing
  | exists
  | notFolder
  | isFolder
  | nameTooLong
  deriving DecidableEq, Repr

def Problem.number : Problem → Nat
  | missing => 2
  | «exists» => 17
  | notFolder => 20
  | isFolder => 21
  | nameTooLong => 36

def Problem.text : Problem → String
  | missing => "No such file or directory"
  | «exists» => "File exists"
  | notFolder => "Not a directory"
  | isFolder => "Is a directory"
  | nameTooLong => "File name too long"

inductive Refusal where
  | nullByte
  | problem (problem : Problem) (path : String)
  deriving DecidableEq, Repr

def Refusal.message : Refusal → String
  | nullByte => "embedded null byte"
  | problem p path => "[Errno " ++ p.number.repr ++ "] " ++ p.text ++ ": " ++ Text.quoted path

def find? (f : Files) : Location → Option Entry
  | [] => some .folder
  | place => f.entries.lookup place

def put (f : Files) (place : Location) (e : Entry) : Files :=
  { f with entries := (place, e) :: f.entries.filter (·.1 ≠ place) }

@[simp] theorem home_put (f : Files) (place : Location) (e : Entry) :
    (f.put place e).home = f.home := rfl

theorem find?_put_self (f : Files) {place : Location} (h : place ≠ []) (e : Entry) :
    (f.put place e).find? place = some e := by
  cases place with
  | nil => exact absurd rfl h
  | cons name rest => simp [find?, put]

theorem find?_put_ne (f : Files) {place other : Location} (h : other ≠ place) (e : Entry) :
    (f.put place e).find? other = f.find? other := by
  cases other with
  | nil => rfl
  | cons name rest =>
    obtain ⟨home, entries⟩ := f
    simp only [find?, put, List.lookup_cons, beq_eq_false_iff_ne.mpr h]
    induction entries with
    | nil => rfl
    | cons first entries ih =>
      obtain ⟨at', e'⟩ := first
      by_cases hp : at' = place
      · subst hp
        simpa [List.lookup_cons, beq_eq_false_iff_ne.mpr h] using ih
      · simp only [ne_eq, decide_not, hp, decide_false, Bool.not_false, List.filter_cons_of_pos,
          List.lookup_cons]
        split <;> simp_all

/-- The most bytes of a name, and one more than the most bytes of a path. -/
def maxName : Nat := 255

def maxPath : Nat := 4096

/-- Follows names from a folder. An empty name and a dot stay where they are and two dots go up,
but only from a folder; the entry that the last name leads to need not exist. -/
def follow (f : Files) (place : Location) : List String → Except Problem Location
  | [] => .ok place
  | name :: rest =>
    match f.find? place with
    | none => .error .missing
    | some (.file _) => .error .notFolder
    | some .folder =>
      if name = "" ∨ name = "." then f.follow place rest
      else if name = ".." then f.follow place.dropLast rest
      else if maxName < name.utf8ByteSize then .error .nameTooLong
      else f.follow (place ++ [name]) rest

def names (path : String) : List String := (path.toList.splitOn '/').map String.ofList

def locate (f : Files) (path : String) : Except Problem Location :=
  if path = "" then .error .missing
  else if maxPath ≤ path.utf8ByteSize then .error .nameTooLong
  else f.follow (if path.toList.head? = some '/' then [] else f.home) (names path)

def read (f : Files) (path : String) : Except Refusal ByteArray :=
  if path.toList.contains '\x00' then .error .nullByte
  else match f.locate path with
    | .error p => .error (.problem p path)
    | .ok place => match f.find? place with
      | none => .error (.problem .missing path)
      | some .folder => .error (.problem .isFolder path)
      | some (.file content) => .ok content

/-- Where a file of a given path is or would be made. A slash at the end asks for a folder, which
is no file, whether it exists or not. -/
def destination (f : Files) (path : String) : Except Refusal Location :=
  if path.toList.contains '\x00' then .error .nullByte
  else
    let cs := path.toList
    let endsInSlash := cs.getLast? = some '/'
    let bare := String.ofList (cs.reverse.dropWhile (· == '/')).reverse
    let found :=
      if maxPath ≤ path.utf8ByteSize then .error .nameTooLong
      else if endsInSlash then
        match (names bare).dropLast with
        | [] => .error .isFolder
        | above => match f.locate ("/".intercalate (above ++ [""])) with
          | .error p => .error p
          | .ok _ => .error .isFolder
      else f.locate path
    match found with
    | .error p => .error (.problem p path)
    | .ok place =>
      if f.find? place = some .folder then .error (.problem .isFolder path) else .ok place

def write (f : Files) (path : String) (content : ByteArray) : Except Refusal Files :=
  (f.destination path).map fun place => f.put place (.file content)

def appendAt (f : Files) (place : Location) (content : ByteArray) : Files :=
  match f.find? place with
  | some (.file old) => f.put place (.file (old ++ content))
  | _ => f.put place (.file content)

def openAt (f : Files) (path : String) : Except Refusal (Files × Location) :=
  (f.destination path).map fun place => (f.appendAt place .empty, place)

def isFolder (f : Files) (path : String) : Bool :=
  match f.locate path with
  | .ok place => f.find? place = some .folder
  | .error _ => false

def makeFolder (f : Files) (path : String) : Except Refusal Files :=
  if path.toList.contains '\x00' then .error .nullByte
  else match f.locate path with
    | .error p => .error (.problem p path)
    | .ok place =>
      if (f.find? place).isSome then .error (.problem .exists path) else .ok (f.put place .folder)

end Files
end RegisterMachine
