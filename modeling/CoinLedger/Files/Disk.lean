import CoinLedger.Files.Path

/-!
What is asked of a file system, and how a file is replaced by means of it: the new contents go to
a sibling that is then renamed, so that the file holds the old bytes or the new ones and nothing
between.
-/

namespace CoinLedger

inductive FileFault where
  | missing
  | present
  | notDirectory
  | directory
  | busy
  | nameTooLong
  | other (text : String)
  deriving DecidableEq, Repr

/-- The wording of a refusal, with the number that the operating system gives it. -/
def FileFault.message : FileFault → String
  | .missing => "No such file or directory (os error 2)"
  | .busy => "Device or resource busy (os error 16)"
  | .present => "File exists (os error 17)"
  | .notDirectory => "Not a directory (os error 20)"
  | .directory => "Is a directory (os error 21)"
  | .nameTooLong => "File name too long (os error 36)"
  | .other text => text

structure Disk (m : Type → Type) where
  isThere : String → m Bool
  isDirectory : String → m Bool
  read : String → m (Except FileFault (List UInt8))
  makeDirectory : String → m (Except FileFault Unit)
  /-- Makes a file with the bytes given, or gives these bytes to a file that is there. -/
  put : String → List UInt8 → m (Except FileFault Unit)
  /-- Moves a file to another name, in place of any file that had it. -/
  rename : String → String → m (Except FileFault Unit)

namespace Disk

variable {m : Type → Type} [Monad m] (disk : Disk m)

/-- A refusal to make a directory is none if the directory is there. -/
def unlessDirectory (path : String) : Except FileFault Unit → m (Except FileFault Unit)
  | .ok () => return .ok ()
  | .error fault => return if ← disk.isDirectory path then .ok () else .error fault

/-- Makes the first directory of a lineage, after the others if it cannot be made without them. -/
def makeLineage : List String → m (Except FileFault Unit)
  | [] => return .ok ()
  | path :: outer => do
    match ← disk.makeDirectory path with
    | .error .missing =>
      match ← makeLineage outer with
      | .ok () => disk.unlessDirectory path (← disk.makeDirectory path)
      | .error fault => return .error fault
    | result => disk.unlessDirectory path result

/-- Makes a directory and those around it, as far as they are not there. -/
def makeDirectories (path : String) : m (Except FileFault Unit) :=
  disk.makeLineage (Path.lineage path)

def draftExtension : String := "tmp"

/-- Gives new contents to a file, in a directory that is made if it is not there. -/
def replace (path : String) (bytes : List UInt8) : m (Except FileFault Unit) := do
  match ← disk.makeDirectories ((Path.parent? path).getD "") with
  | .error fault => return .error fault
  | .ok () =>
    let draft := Path.withExtension path draftExtension
    match ← disk.put draft bytes with
    | .error fault => return .error fault
    | .ok () => disk.rename draft path

/-- What is under a path: nothing, or what reading it gives. -/
def find? (path : String) : m (Option (Except FileFault (List UInt8))) := do
  if ← disk.isThere path then return some (← disk.read path) else return none

end Disk

end CoinLedger
