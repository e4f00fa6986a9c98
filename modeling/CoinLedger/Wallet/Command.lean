import CoinLedger.Wallet.Options

/-!
The commands of the wallet and the command lines that give them. Where files are kept may be said
before or after the command; what is said after it counts.
-/

namespace CoinLedger

/-- What the wallet is asked to do. Amounts, keys and addresses are texts as typed. -/
inductive Command where
  | keygen (secret : Option String) (force : Bool)
  | address
  | registerOrganizer (organization : String) (organizer : Option String)
  | issue (organization amount : String) (beneficiaries : List String)
  | send (organization recipient amount : String)
  | balance (organization : String) (owner : Option String)
  | history (organization : String) (owner : Option String)
  | verify (organization : Option String)
  deriving DecidableEq, Repr

structure Invocation where
  directory : Option String
  statePath : Option String
  verbose : Bool
  command : Command
  deriving DecidableEq, Repr

namespace Command

open Options

def commonOptions : List (String × Takes) :=
  [("dir", .path), ("state", .path), ("verbose", .nothing)]

def ownOptions : List (String × List (String × Takes)) :=
  [("keygen", [("import", .text), ("force", .nothing)]),
    ("address", []),
    ("register-organizer", [("lao", .text), ("organizer", .text)]),
    ("issue", [("lao", .text), ("amount", .text), ("to", .texts)]),
    ("send", [("lao", .text), ("to", .text), ("amount", .text)]),
    ("balance", [("lao", .text), ("owner", .text)]),
    ("history", [("lao", .text), ("owner", .text)]),
    ("verify", [("lao", .text)])]

/-- The grammar of options besides the common ones. -/
def grammar (own : List (String × Takes)) : Grammar := ⟨own ++ commonOptions, [('v', "verbose")]⟩

def ofFound? (name : String) (found : Found) : Option Command := do
  match name with
  | "keygen" => return .keygen (value? found "import") (found.lookup "force").isSome
  | "address" => return .address
  | "register-organizer" =>
    return .registerOrganizer (← value? found "lao") (value? found "organizer")
  | "issue" =>
    return .issue (← value? found "lao") (← value? found "amount") (← found.lookup "to")
  | "send" => return .send (← value? found "lao") (← value? found "to") (← value? found "amount")
  | "balance" => return .balance (← value? found "lao") (value? found "owner")
  | "history" => return .history (← value? found "lao") (value? found "owner")
  | "verify" => return .verify (value? found "lao")
  | _ => none

/-- What is said about a request for help: it may name one command, or itself. -/
def helpOn : List String → Refusal
  | [] => .help
  | [name] => if name = "help" ∨ (ownOptions.lookup name).isSome then .help else .usage
  | _ => .usage

def invocation? (before : Found) (name : String) (after : Found) : Option Invocation := do
  return {
    directory := (value? after "dir").or (value? before "dir")
    statePath := (value? after "state").or (value? before "state")
    verbose := (after.lookup "verbose").isSome || (before.lookup "verbose").isSome
    command := ← ofFound? name after }

end Command

/-- The invocation that a command line gives. The last option before a command is looked at after
those behind it. -/
def Invocation.ofArguments (arguments : List String) : Except Options.Refusal Invocation := do
  match ← (Command.grammar []).scan ⟨[], none⟩ arguments with
  | (_, none) => .error .usage
  | (before, some (name, rest)) =>
    if name = "help" then .error (Command.helpOn rest)
    else
      match Command.ownOptions.lookup name with
      | none => .error .usage
      | some own =>
        match ← (Command.grammar own).scan ⟨[], none⟩ rest with
        | (_, some _) => .error .usage
        | (after, none) =>
          let after ← after.close
          let before ← before.close
          match Command.invocation? before name after with
          | some i => return i
          | none => .error .usage

end CoinLedger
