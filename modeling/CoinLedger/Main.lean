import CoinLedger.Wallet.Run
import Std.Time.Format

/-!
The command line: the wallet on the files, the variables and the clock of the machine.
-/

namespace CoinLedger.CommandLine

/-- The refusal behind an error of the operating system. -/
def faultOf : IO.Error → FileFault
  | .noFileOrDirectory .. => .missing
  | .alreadyExists .. => .present
  | .resourceBusy .. => .busy
  | .inappropriateType _ code _ => if code = 20 then .notDirectory else .directory
  | .invalidArgument _ code text => if code = 36 then .nameTooLong else .other text
  | error => .other (toString error)

def refusing {α : Type} (action : IO α) : IO (Except FileFault α) := do
  match ← action.toBaseIO with
  | .ok a => return .ok a
  | .error error => return .error (faultOf error)

def resolves (path : String) : IO Bool :=
  return (← refusing (IO.FS.realPath path)).isOk

def disk : Disk IO where
  isThere := resolves
  isDirectory path := resolves (Path.join path ".")
  read path := refusing (return (← IO.FS.readBinFile path).toList)
  makeDirectory path := refusing (IO.FS.createDir path)
  put path bytes := refusing (IO.FS.writeBinFile path ⟨bytes.toArray⟩)
  rename source target := refusing (IO.FS.rename source target)

/-- The variables that settings, paths and files of variables may name. -/
def environment : IO Environment := do
  let names := ["HOME", Settings.accountingVariable, Settings.statePathVariable,
    Settings.capacityVariable]
  let given ← names.filterMapM fun name => do
    return (← IO.getEnv name).map fun value => (name, value)
  return .ofBindings given

/-- The time now, to the nanosecond and in universal time. -/
def now : IO String := do
  let time := Std.Time.DateTime.ofTimestamp (← Std.Time.Timestamp.now) .UTC
  return time.format "uuuu-MM-dd'T'HH:mm:ss.SSSSSSSSSxxx"

/-- A new key pair, if the system has randomness to give. -/
def freshKeys : IO KeyPair := do
  let secret := (← IO.getRandomBytes 32).toList
  if h : secret.length = 32 then return ⟨secret, h⟩
  else throw (IO.userError "not enough random bytes")

end CoinLedger.CommandLine

open CoinLedger CommandLine

def main (arguments : List String) : IO UInt32 := do
  match ← disk.run arguments (← environment) (← now) (← freshKeys) with
  | .error refusal =>
    IO.eprintln "usage: lao-wallet [--dir DIR] [--state STATE] [--verbose] COMMAND [OPTIONS]"
    return refusal.exitCode.toUInt32
  | .ok completion =>
    IO.print completion.output
    if let some failure := completion.failure then IO.eprintln failure.report
    return completion.exitCode.toUInt32
