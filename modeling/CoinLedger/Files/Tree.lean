import CoinLedger.Files.Disk

/-!
Directories and files as a value. A path is walked component by component from the root or from
the working directory; every step starts in a directory. Names are case-sensitive and there are no
links.
-/

namespace CoinLedger

inductive Entry where
  | directory
  | file (bytes : List UInt8)
  deriving DecidableEq

/-- The entries by the names on the way from the root, and the working directory. The root is
always there. -/
structure FileTree where
  entries : List (List String × Entry)
  working : List String

namespace FileTree

def ofWorking (working : List String) : FileTree where
  entries := (List.range working.length).map fun n => (working.take (n + 1), .directory)
  working := working

def slot? (t : FileTree) (place : List String) : Option Entry :=
  if place = [] then some .directory else t.entries.lookup place

def set (t : FileTree) (place : List String) (e : Entry) : FileTree :=
  { t with entries := (place, e) :: t.entries.filter fun old => old.1 ≠ place }

def erase (t : FileTree) (place : List String) : FileTree :=
  { t with entries := t.entries.filter fun old => old.1 ≠ place }

/-- The longest name in bytes. -/
def nameLimit : Nat := 255

/-- The size from which on a path is too long. -/
def pathLimit : Nat := 4096

def step (t : FileTree) (place : List String) (name : String) : Except FileFault (List String) :=
  match t.slot? place with
  | none => .error .missing
  | some (.file _) => .error .notDirectory
  | some .directory =>
    if name = "" ∨ name = "." then .ok place
    else if name = ".." then .ok place.dropLast
    else if nameLimit < name.utf8ByteSize then .error .nameTooLong
    else .ok (place ++ [name])

def walk (t : FileTree) (path : String) : Except FileFault (List String) :=
  (Path.components path).foldlM t.step (if path.front = '/' then [] else t.working)

def checkPath (path : String) : Except FileFault Unit :=
  if path = "" then .error .missing
  else if pathLimit ≤ path.utf8ByteSize then .error .nameTooLong
  else .ok ()

def locate (t : FileTree) (path : String) : Except FileFault (List String) := do
  checkPath path
  t.walk path

/-- The place that a path names up to a slash at its end, and whether it ends in one. A name
followed by a slash can only be a directory. -/
def locateName (t : FileTree) (path : String) : Except FileFault (List String × Bool) := do
  checkPath path
  let name := Path.trimSlashes path
  return (← t.walk name, decide (name ≠ path))

def at? (t : FileTree) (path : String) : Except FileFault Entry := do
  match t.slot? (← t.locate path) with
  | some e => return e
  | none => .error .missing

def isThere (t : FileTree) (path : String) : Bool := (t.at? path).isOk

def isDirectory (t : FileTree) (path : String) : Bool :=
  match t.at? path with
  | .ok .directory => true
  | _ => false

def read (t : FileTree) (path : String) : Except FileFault (List UInt8) := do
  match ← t.at? path with
  | .directory => .error .directory
  | .file bytes => return bytes

def makeDirectory (t : FileTree) (path : String) : Except FileFault FileTree := do
  let (place, _) ← t.locateName path
  match t.slot? place with
  | some _ => .error .present
  | none => return t.set place .directory

def put (t : FileTree) (path : String) (bytes : List UInt8) : Except FileFault FileTree := do
  let (place, slash) ← t.locateName path
  if slash ∨ t.slot? place = some .directory then .error .directory
  else return t.set place (.file bytes)

/-- The tree with a file under another name. A root and a component of dots are in use and cannot
be replaced. -/
def rename (t : FileTree) (source target : String) : Except FileFault FileTree := do
  let bytes ← t.read source
  let from_ ← t.locate source
  let (place, slash) ← t.locateName target
  if Path.isNamed target = false then .error .busy
  else if slash then .error .notDirectory
  else if t.slot? place = some .directory then .error .directory
  else return (t.erase from_).set place (.file bytes)

def attempt (change : FileTree → Except FileFault FileTree) :
    StateM FileTree (Except FileFault Unit) := fun t =>
  match change t with
  | .ok t => (.ok (), t)
  | .error fault => (.error fault, t)

def disk : Disk (StateM FileTree) where
  isThere path := fun t => (t.isThere path, t)
  isDirectory path := fun t => (t.isDirectory path, t)
  read path := fun t => (t.read path, t)
  makeDirectory path := attempt (·.makeDirectory path)
  put path bytes := attempt (·.put path bytes)
  rename source target := attempt (·.rename source target)

end FileTree

end CoinLedger
