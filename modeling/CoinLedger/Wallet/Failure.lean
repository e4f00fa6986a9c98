import CoinLedger.Files.Disk
import CoinLedger.Snapshot

/-!
Why a wallet command fails, and how the failure is reported: a headline, and the causes behind it
one after the other.
-/

namespace CoinLedger

inductive Failure where
  | noWallet (directory : String)
  | secretText (cause : Malformed)
  | corruptKeyFile (cause : Malformed)
  | foreignSecret
  | notOrganizer (organization : String)
  | cash (cause : CashError)
  | indexMismatch
  | reading (fault : FileFault)
  | notText
  | parsing (path : String)
  | writing (path : String) (fault : FileFault)
  | replaying (fault : ReplayFault)
  /-- No queue can hold as many messages as the settings ask for. -/
  | queueSize
  /-- A file assigns a value that no variable can hold. -/
  | variableValue
  deriving DecidableEq

namespace Failure

def texts : Failure → List String
  | .noWallet directory =>
    [s!"No wallet found in {directory}. Create one with 'lao-wallet keygen'"]
  | .secretText cause => [s!"Invalid secret key: {(CashError.malformed cause).message}"]
  | .corruptKeyFile cause => [s!"Corrupt key file: {(CashError.malformed cause).message}"]
  | .foreignSecret => ["Key file public key does not match its secret"]
  | .notOrganizer organization =>
    [s!"This wallet is not the registered organizer of {organization}"]
  | .cash cause => [cause.message]
  | .indexMismatch => ["index mismatch"]
  | .reading fault => [fault.message]
  | .notText => ["stream did not contain valid UTF-8"]
  | .parsing path => [s!"parsing {path}", Malformed.json.detail]
  | .writing path fault => [s!"writing {path}", fault.message]
  | .replaying fault => ["replaying saved ledger", fault.message, fault.cause.message]
  | .queueSize => ["outbound queue too large"]
  | .variableValue => ["variable cannot hold a NUL"]

/-- The exit status. Settings that cannot be taken on at all end the program with one of their
own. -/
def exitCode : Failure → Nat
  | .queueSize | .variableValue => 101
  | _ => 1

/-- A text whose lines after the first are indented. -/
def indented (indent : List Char) (text : String) : List Char :=
  text.toList.flatMap fun c => if c = '\n' then '\n' :: indent else [c]

/-- The number in front of a cause, right-aligned. -/
def causeLabel (n : Nat) : List Char :=
  let digits := Nat.toDigits 10 n
  List.replicate (5 - digits.length) ' ' ++ digits ++ [':', ' ']

/-- The lines of the causes: a single one is indented, several are numbered. -/
def causeLines : List String → List (List Char)
  | [cause] => [List.replicate 4 ' ' ++ indented (List.replicate 4 ' ') cause]
  | causes => causes.zipIdx.map fun (cause, n) =>
    causeLabel n ++ indented (List.replicate 7 ' ') cause

/-- The report of a headline with its causes. -/
def reportOf : List String → String
  | [] => "Error: "
  | [headline] => "Error: " ++ headline
  | headline :: causes =>
    "Error: " ++ headline ++ "\n\nCaused by:" ++
      String.ofList ((causeLines causes).flatMap ('\n' :: ·))

def report (f : Failure) : String := reportOf f.texts

end Failure

end CoinLedger
