import RegisterMachine.Files

/-! Paths in normal form: without empty names and single dots, and with a root of no, one or two
slashes. Two dots are kept, since they go up only from a folder that exists. -/
namespace RegisterMachine.Files

structure Path where
  root : String
  names : List String
  deriving DecidableEq, Repr

namespace Path

/-- Exactly two slashes are a root of their own; any other number counts as one. -/
def ofString (s : String) : Path :=
  let slashes := (s.toList.takeWhile (· == '/')).length
  { root := if slashes = 0 then "" else if slashes = 2 then "//" else "/"
    names := (Files.names s).filter fun name => name ≠ "" ∧ name ≠ "." }

def text (p : Path) : String :=
  if p.root = "" ∧ p.names = [] then "." else p.root ++ "/".intercalate p.names

def parent (p : Path) : Path := { p with names := p.names.dropLast }

/-- The place a path names when two dots cancel the name before them, whatever is there. -/
def absolute (home : Location) (p : Path) : String :=
  let start := if p.root = "" then home else []
  let names := p.names.foldl
    (fun place name => if name = ".." then place.dropLast else place ++ [name]) start
  (if p.root = "" then "/" else p.root) ++ "/".intercalate names

end Path

def reach (place : Location) : List String → List Location
  | [] => [place]
  | name :: rest =>
    place :: reach
      (if name = "" ∨ name = "." then place
      else if name = ".." then place.dropLast
      else place ++ [name]) rest

/-- All places that have to do with a path, followed name by name or taken as it stands. -/
def around (home : Location) (path : String) : List Location :=
  let start := if path.toList.head? = some '/' then [] else home
  reach start (names path) ++ reach [] (names ((Path.ofString path).absolute home))

/-- A folder that is there already is as good as made. -/
def ensureFolder (f : Files) (path : String) : Except Refusal Files :=
  match f.makeFolder path with
  | .ok g => .ok g
  | .error (.problem .missing path) => .error (.problem .missing path)
  | .error e => if f.isFolder path then .ok f else .error e

/-- Makes a folder and those above it, from the last name (the first of the list) upwards. -/
def ensureFolders (f : Files) (root : String) : List String → Files × Except Refusal Unit
  | [] =>
    match f.ensureFolder (Path.text ⟨root, []⟩) with
    | .ok f => (f, .ok ())
    | .error e => (f, .error e)
  | name :: above =>
    let path := Path.text ⟨root, (name :: above).reverse⟩
    match f.ensureFolder path with
    | .ok f => (f, .ok ())
    | .error (.problem .missing _) =>
      match f.ensureFolders root above with
      | (f, .error e) => (f, .error e)
      | (f, .ok ()) => match f.ensureFolder path with
        | .ok f => (f, .ok ())
        | .error e => (f, .error e)
    | .error e => (f, .error e)

end RegisterMachine.Files
