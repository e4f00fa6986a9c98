import CoinLedger.Environment
import CoinLedger.Wallet.Plan

/-!
A command line from its words to its end: the variables, the settings, the two files, the plan, and
the one file that it may replace.
-/

namespace CoinLedger

/-- What a command printed, and the failure it ended in, if it did. -/
structure Completion where
  said : List String
  failure : Option Failure
  deriving DecidableEq

namespace Completion

def exitCode (c : Completion) : Nat :=
  match c.failure with
  | some failure => failure.exitCode
  | none => 0

def output (c : Completion) : String := String.join (c.said.map (· ++ "\n"))

end Completion

def Options.Refusal.exitCode : Options.Refusal → Nat
  | .usage => 2
  | .help => 0

/-- The directory of the wallet unless another is given: under the home directory, if there is
one. -/
def Environment.walletDirectory (e : Environment) : String :=
  Path.join ((e.get? "HOME").getD "") ".lao_wallet"

/-- What a command is carried out with. A path on the command line comes before one from the
environment. -/
def Invocation.context (i : Invocation) (e : Environment) (now : String) (fresh : KeyPair) :
    Context :=
  let settings := Settings.ofVariables e.get?
  let directory := i.directory.getD e.walletDirectory
  { directory := directory
    statePath := (i.statePath.or settings.statePath).getD (Path.join directory "state.json")
    settings := settings
    now := now
    fresh := fresh }

namespace Disk

variable {m : Type → Type} [Monad m] (disk : Disk m)

def environmentFile : String := ".env"

/-- The environment with what the file in the working directory adds, unless it assigns a value
that cannot be held. -/
def loadEnvironment? (e : Environment) : m (Option Environment) := do
  if ← disk.isDirectory environmentFile then return some e
  else
    match ← disk.find? environmentFile with
    | some (.ok bytes) => return e.load? bytes
    | _ => return some e

def carryOut (plan : Plan) : m Completion :=
  match plan.ending with
  | .done => return ⟨plan.said, none⟩
  | .failed failure => return ⟨plan.said, some failure⟩
  | .save path bytes said => do
    match ← disk.replace path bytes with
    | .ok () => return ⟨plan.said ++ said, none⟩
    | .error fault => return ⟨plan.said, some (.writing path fault)⟩

def invoke (i : Invocation) (e : Environment) (now : String) (fresh : KeyPair) : m Completion := do
  match ← disk.loadEnvironment? e with
  | none => return ⟨[], some .variableValue⟩
  | some e => do
    let c := i.context e now fresh
    let keyFile ← disk.find? c.keyPath
    let stateFile ← disk.find? c.statePath
    disk.carryOut (i.command.plan c keyFile stateFile)

def run (arguments : List String) (e : Environment) (now : String) (fresh : KeyPair) :
    m (Except Options.Refusal Completion) :=
  match Invocation.ofArguments arguments with
  | .error refusal => return .error refusal
  | .ok i => return .ok (← disk.invoke i e now fresh)

end Disk

end CoinLedger
