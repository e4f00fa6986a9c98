import CoinLedger.Settings
import CoinLedger.Wallet.Command
import CoinLedger.Wallet.Failure
import CoinLedger.Wallet.State

/-!
What each command comes to, given what was found in its two files: the lines that it prints, and
whether it ends, fails or saves one file. A command that fails saves nothing.
-/

namespace CoinLedger

/-- What is under a path: nothing, or what reading it gave. -/
abbrev Finding := Option (Except FileFault (List UInt8))

/-- What a command is carried out with: its paths, the settings, the time, and a key pair for a
command that needs a new one. -/
structure Context where
  directory : String
  statePath : String
  settings : Settings
  now : String
  fresh : KeyPair

def Context.keyPath (c : Context) : String := Path.join c.directory "key.json"

inductive Ending where
  | done
  | failed (failure : Failure)
  /-- A file is replaced, and the lines are printed once it is. -/
  | save (path : String) (bytes : List UInt8) (said : List String)
  deriving DecidableEq

/-- The lines that a command prints, and how it ends. -/
structure Plan where
  said : List String
  ending : Ending
  deriving DecidableEq

namespace Plan

/-- A failure in place of a plan is a plan that fails. -/
def ofExcept : Except Failure Plan → Plan
  | .ok plan => plan
  | .error failure => ⟨[], .failed failure⟩

/-- A line, and then what comes of a step that may fail. -/
def announce (line : String) : Except Failure Ending → Plan
  | .ok ending => ⟨[line], ending⟩
  | .error failure => ⟨[line], .failed failure⟩

end Plan

/-- A result whose only failures are refusals. -/
def Failure.ofCash {α : Type} : Except CashError α → Except Failure α
  | .ok a => .ok a
  | .error cause => .error (.cash cause)

/-- The key pair of a key file, if its secret belongs to its public key. -/
def KeyFile.keys (k : KeyFile) : Except Failure KeyPair :=
  match KeyPair.ofText k.secretText with
  | .error cause => .error (.corruptKeyFile cause)
  | .ok keys => if keys.publicKey = k.publicKey then .ok keys else .error .foreignSecret

namespace Context

variable (c : Context)

def loadKey : Finding → Except Failure KeyFile
  | none => .error (.noWallet c.directory)
  | some (.error fault) => .error (.reading fault)
  | some (.ok bytes) =>
    if (Text.ofUtf8? bytes).isNone then .error .notText
    else match KeyFile.decode? bytes with
      | some k => .ok k
      | none => .error (.parsing c.keyPath)

/-- The state that was found; without a file it is empty and in the mode of the settings. -/
def loadState : Finding → Except Failure WalletState
  | none => .ok (.empty c.settings.accounting c.now)
  | some (.error fault) => .error (.reading fault)
  | some (.ok bytes) =>
    match WalletState.decode? bytes with
    | some s => .ok s
    | none => .error (.parsing c.statePath)

/-- The most messages that a queue can be made for, 2^61 − 1. -/
def queueLimit : Nat := (1 <<< 61) - 1

/-- The participant with a state. -/
def openState (s : WalletState) : Except Failure Service :=
  match s.toService c.settings.capacity with
  | .error fault => .error (.replaying fault)
  | .ok service => if queueLimit < c.settings.capacity then .error .queueSize else .ok service

def loadService (stateFile : Finding) : Except Failure Service := do
  c.openState (← c.loadState stateFile)

def saveState (s : WalletState) (said : List String) : Ending := .save c.statePath s.encode said

def saveService (s : Service) (said : List String) : Ending :=
  c.saveState (.ofService s c.now) said

/-- The address that is asked about: the one given, or else the wallet's own. -/
def owner (keyFile : Finding) : Option String → Except Failure Hash
  | some text => Failure.ofCash (CashError.ofForm (Hash.ofText (Text.trim text)))
  | none => (c.loadKey keyFile).map KeyFile.address

end Context

/-! ### Keys -/

def Context.saveKeys (c : Context) (keys : KeyPair) : Ending :=
  let k := KeyFile.ofKeys keys c.now
  .save c.keyPath k.encode
    ["", "✅ Wallet saved", s!"Address: {k.address.spelling}", s!"Public Key: {k.publicKey.text}",
      s!"Key file: {c.keyPath}"]

def Plan.keygen (c : Context) (keyFile : Finding) (secret : Option String) (force : Bool) : Plan :=
  if keyFile.isSome ∧ force = false then
    ⟨["⚠️  Wallet already exists!",
      "Use 'lao-wallet address' to view it, or pass --force to replace it"], .done⟩
  else
    match secret with
    | none => ⟨["🔐 Generating new key..."], c.saveKeys c.fresh⟩
    | some text =>
      .announce "🔑 Importing key..."
        (match KeyPair.ofText (Text.trim text) with
          | .ok keys => .ok (c.saveKeys keys)
          | .error cause => .error (.secretText cause))

def ruler (c : Char) : String := String.ofList (List.replicate 50 c)

def Plan.address (c : Context) (keyFile : Finding) : Plan :=
  .ofExcept do
    let k ← c.loadKey keyFile
    return ⟨["", "👛 Wallet Information", ruler '═', s!"Address: {k.address.spelling}",
      s!"Public Key: {k.publicKey.text}", s!"Created: {k.createdAt}"], .done⟩

/-! ### Changes of the state -/

/-- The key that is to issue: the one given, or else the wallet's own. -/
def Context.organizer (c : Context) (keyFile : Finding) : Option String → Except Failure PublicKey
  | some text => Failure.ofCash (CashError.ofForm (PublicKey.ofText (Text.trim text)))
  | none => (c.loadKey keyFile).map KeyFile.publicKey

def Plan.registerOrganizer (c : Context) (keyFile stateFile : Finding) (organization : String)
    (organizer : Option String) : Plan :=
  .ofExcept do
    let key ← c.organizer keyFile organizer
    let s ← c.loadState stateFile
    let warning := match s.organizers.find? organization with
      | some previous =>
        if previous = key then [] else [s!"⚠️  Replacing organizer {previous.text}"]
      | none => []
    let changed : WalletState := { s with organizers := s.organizers.insert organization key }
    return ⟨warning, c.saveState changed [s!"✅ {key.text} may issue cash in {organization}"]⟩

def transactionLines (tx : Transaction) : List String :=
  ["", "Transaction Details:", ruler '─', s!"Id: {tx.id.spelling}"] ++
    (tx.body.inputs.map fun i => s!"Spends: {i.outpoint.text}") ++
    (tx.body.outputs.map fun o => s!"Pays: {o.value.toNat} -> {o.owner.spelling}") ++
    [ruler '─']

/-- Delivers every queued message back, as the transport would, and empties the queue. -/
def Service.echo (s : Service) (sender : PublicKey) : Except CashError (Service × List Outcome) :=
  s.outbox.queue.foldlM
    (fun (s, outcomes) m =>
      (s.deliver ⟨m.channel.text, sender, m.message.encode⟩).map fun (s, outcome) =>
        (s, outcomes ++ [outcome]))
    ({ s with outbox := s.outbox.drained }, [])

def amountOfText (text : String) : Except CashError Int64 := do (← Amount.ofText text).toInt64

def addressesOfTexts (texts : List String) : Except CashError (List Hash) :=
  texts.mapM fun text => CashError.ofForm (Hash.ofText (Text.trim text))

def Plan.issue (c : Context) (keyFile stateFile : Finding) (organization amount : String)
    (beneficiaries : List String) : Plan :=
  .ofExcept do
    let k ← c.loadKey keyFile
    let keys ← k.keys
    let amount ← Failure.ofCash (amountOfText amount)
    let addresses ← Failure.ofCash (addressesOfTexts beneficiaries)
    let s ← c.loadService stateFile
    match Grant.request s.registry organization keys.publicKey with
    | .error _ => throw (.notOrganizer organization)
    | .ok grant =>
      return .announce "🪙 Issuing..." (Failure.ofCash do
        let (s, tx) ← s.issue grant addresses amount
        let (s, _) ← s.echo keys.publicKey
        return c.saveService s (transactionLines tx ++ ["", "✅ Issuance applied"]))

def Plan.send (c : Context) (keyFile stateFile : Finding) (organization recipient amount : String) :
    Plan :=
  .ofExcept do
    let k ← c.loadKey keyFile
    let keys ← k.keys
    let recipient ← Failure.ofCash (CashError.ofForm (Hash.ofText (Text.trim recipient)))
    let amount ← Failure.ofCash (amountOfText amount)
    let s ← c.loadService stateFile
    return .announce "📤 Preparing transaction..." (Failure.ofCash do
      let (s, tx) ← s.send organization keys.signer recipient amount
      let (s, outcomes) ← s.echo keys.publicKey
      let known :=
        if Outcome.alreadyApplied ∈ outcomes then ["Transaction was already in the ledger"] else []
      return c.saveService s (transactionLines tx ++ known ++ ["", "✅ Transaction applied"]))

/-! ### Questions to the state -/

def Plan.balance (c : Context) (keyFile stateFile : Finding) (organization : String)
    (owner : Option String) : Plan :=
  .ofExcept do
    let owner ← c.owner keyFile owner
    let s ← c.loadService stateFile
    return ⟨["", s!"Balance: {s.ledger.balance organization owner}",
      s!"({owner.spelling} in {organization})"], .done⟩

/-- What a transaction pays an owner, in 64 bits. -/
def received (owner : Hash) (tx : Transaction) : UInt64 :=
  ((tx.body.outputs.filter fun o => o.owner.bytes = owner.bytes).map Output.value).foldl (· + ·) 0

def historyLine (owner : Hash) (tx : Transaction) : String :=
  let kind := if tx.body.isCoinbase then "issuance" else "transfer"
  s!"{tx.id.spelling}  {kind}  +{(received owner tx).toNat}"

def Plan.history (c : Context) (keyFile stateFile : Finding) (organization : String)
    (owner : Option String) : Plan :=
  .ofExcept do
    let owner ← c.owner keyFile owner
    let s ← c.loadService stateFile
    match s.ledger.transactionsOf organization owner with
    | [] => return ⟨["No transactions"], .done⟩
    | history => return ⟨history.map (historyLine owner), .done⟩

/-- The line of each organization whose indices were rebuilt, and whether all of them agree. -/
def verifyAll (l : Ledger) : List String → List String × Except Failure Bool
  | [] => ([], .ok true)
  | organization :: rest =>
    match l.verifyIndices organization with
    | .error cause => ([], .error (.cash cause))
    | .ok same =>
      let (lines, all) := verifyAll l rest
      let mark := if same then "✅" else "❌"
      (s!"{mark} {organization} ({(l.log organization).length} transactions)" :: lines,
        all.map (same && ·))

def Plan.verify (c : Context) (stateFile : Finding) (organization : Option String) : Plan :=
  .ofExcept do
    let s ← c.loadService stateFile
    let organizations := match organization with
      | some organization => [organization]
      | none => s.ledger.organizations
    match verifyAll s.ledger organizations with
    | (lines, .ok true) => return ⟨lines, .done⟩
    | (lines, .ok false) => return ⟨lines, .failed .indexMismatch⟩
    | (lines, .error failure) => return ⟨lines, .failed failure⟩

def Command.plan (c : Context) (keyFile stateFile : Finding) : Command → Plan
  | .keygen secret force => .keygen c keyFile secret force
  | .address => .address c keyFile
  | .registerOrganizer organization organizer =>
    .registerOrganizer c keyFile stateFile organization organizer
  | .issue organization amount beneficiaries =>
    .issue c keyFile stateFile organization amount beneficiaries
  | .send organization recipient amount => .send c keyFile stateFile organization recipient amount
  | .balance organization owner => .balance c keyFile stateFile organization owner
  | .history organization owner => .history c keyFile stateFile organization owner
  | .verify organization => .verify c stateFile organization

end CoinLedger
