import CoinLedger.Proofs.Ledger.InPlace
import CoinLedger.Proofs.Wallet.Calls

/-!
The commands step by step: each looks at a file when it comes to need it, prints line by line, and may
save at any point. A failure stops a command where it stands and takes back neither a file nor a line.
Main statement: every call comes to the same as when its plan is made first and then carried out, so
that nothing is saved or printed too early.
-/

namespace CoinLedger

/-- How far a command has got: the disk, and the lines that were printed. -/
structure Progress (σ : Type) where
  disk : σ
  said : List String

namespace Progress

variable {σ : Type}

def say (s : Progress σ) (lines : List String) : Progress σ := { s with said := s.said ++ lines }

theorem say_nil (s : Progress σ) : s.say [] = s := by rw [say, List.append_nil]

theorem say_say (s : Progress σ) (lines more : List String) :
    (s.say lines).say more = s.say (lines ++ more) := by
  simp only [say, List.append_assoc]

/-- What is left when a command has ended. -/
def completion : EStateM.Result Failure (Progress σ) PUnit → Completion × σ
  | .ok _ s => (⟨s.said, none⟩, s.disk)
  | .error failure s => (⟨s.said, some failure⟩, s.disk)

end Progress

/-- A command or a part of one; what was done before a failure stays done. -/
abbrev Stepwise (σ : Type) := EStateM Failure (Progress σ)

namespace Stepwise

section Steps

variable {σ : Type} (disk : Disk (StateM σ)) (c : Context)

def say (lines : List String) : Stepwise σ PUnit := modify fun s => s.say lines

def onDisk {α : Type} (x : StateM σ α) : Stepwise σ α := fun s =>
  .ok (x s.disk).1 { s with disk := (x s.disk).2 }

def save (path : String) (bytes : List UInt8) : Stepwise σ PUnit := do
  match ← onDisk (disk.replace path bytes) with
  | .ok () => return ⟨⟩
  | .error fault => throw (.writing path fault)

def cash {α : Type} (x : Except CashError α) : Stepwise σ α :=
  MonadExcept.ofExcept (Failure.ofCash x)

def loadKey : Stepwise σ KeyFile := do
  MonadExcept.ofExcept (c.loadKey (← onDisk (disk.find? c.keyPath)))

def loadState : Stepwise σ WalletState := do
  MonadExcept.ofExcept (c.loadState (← onDisk (disk.find? c.statePath)))

def loadService : Stepwise σ Service := do
  MonadExcept.ofExcept (c.openState (← loadState disk c))

def owner : Option String → Stepwise σ Hash
  | some text => cash (CashError.ofForm (Hash.ofText (Text.trim text)))
  | none => return (← loadKey disk c).address

def organizer : Option String → Stepwise σ PublicKey
  | some text => cash (CashError.ofForm (PublicKey.ofText (Text.trim text)))
  | none => return (← loadKey disk c).publicKey

def makeKeys : Option String → Stepwise σ KeyPair
  | none => do
    say ["🔐 Generating new key..."]
    return c.fresh
  | some text => do
    say ["🔑 Importing key..."]
    match KeyPair.ofText (Text.trim text) with
    | .ok keys => return keys
    | .error cause => throw (.secretText cause)

def keygen (secret : Option String) (force : Bool) : Stepwise σ PUnit := do
  let present ← onDisk (disk.isThere c.keyPath)
  if present = true ∧ force = false then
    say ["⚠️  Wallet already exists!"]
    say ["Use 'lao-wallet address' to view it, or pass --force to replace it"]
  else
    let keys ← makeKeys c secret
    let k := KeyFile.ofKeys keys c.now
    save disk c.keyPath k.encode
    say ["", "✅ Wallet saved"]
    say [s!"Address: {k.address.spelling}"]
    say [s!"Public Key: {k.publicKey.text}"]
    say [s!"Key file: {c.keyPath}"]

def address : Stepwise σ PUnit := do
  let k ← loadKey disk c
  say ["", "👛 Wallet Information"]
  say [ruler '═']
  say [s!"Address: {k.address.spelling}"]
  say [s!"Public Key: {k.publicKey.text}"]
  say [s!"Created: {k.createdAt}"]

def warnOfOther (key : PublicKey) : Option PublicKey → Stepwise σ PUnit
  | some previous =>
    if previous = key then return ⟨⟩ else say [s!"⚠️  Replacing organizer {previous.text}"]
  | none => return ⟨⟩

def registerOrganizer (organization : String) (named : Option String) : Stepwise σ PUnit := do
  let key ← organizer disk c named
  let s ← loadState disk c
  warnOfOther key (s.organizers.find? organization)
  let changed : WalletState := { s with organizers := s.organizers.insert organization key }
  save disk c.statePath changed.encode
  say [s!"✅ {key.text} may issue cash in {organization}"]

def sayTransaction (tx : Transaction) : Stepwise σ PUnit := do
  say ["", "Transaction Details:"]
  say [ruler '─']
  say [s!"Id: {tx.id.spelling}"]
  tx.body.inputs.forM fun i => say [s!"Spends: {i.outpoint.text}"]
  tx.body.outputs.forM fun o => say [s!"Pays: {o.value.toNat} -> {o.owner.spelling}"]
  say [ruler '─']

def issue (organization amount : String) (beneficiaries : List String) : Stepwise σ PUnit := do
  let k ← loadKey disk c
  let keys ← MonadExcept.ofExcept k.keys
  let amount ← cash (amountOfText amount)
  let addresses ← cash (addressesOfTexts beneficiaries)
  let s ← loadService disk c
  match Grant.request s.registry organization keys.publicKey with
  | .error _ => throw (.notOrganizer organization)
  | .ok grant =>
    say ["🪙 Issuing..."]
    let (s, tx) ← cash (s.issue grant addresses amount)
    let (s, _) ← cash (s.echo keys.publicKey)
    save disk c.statePath (WalletState.ofService s c.now).encode
    sayTransaction tx
    say ["", "✅ Issuance applied"]

def send (organization recipient amount : String) : Stepwise σ PUnit := do
  let k ← loadKey disk c
  let keys ← MonadExcept.ofExcept k.keys
  let recipient ← cash (CashError.ofForm (Hash.ofText (Text.trim recipient)))
  let amount ← cash (amountOfText amount)
  let s ← loadService disk c
  say ["📤 Preparing transaction..."]
  let (s, tx) ← cash (s.send organization keys.signer recipient amount)
  let (s, outcomes) ← cash (s.echo keys.publicKey)
  save disk c.statePath (WalletState.ofService s c.now).encode
  sayTransaction tx
  if Outcome.alreadyApplied ∈ outcomes then
    say ["Transaction was already in the ledger"]
  say ["", "✅ Transaction applied"]

def balance (organization : String) (named : Option String) : Stepwise σ PUnit := do
  let owner ← owner disk c named
  let s ← loadService disk c
  say ["", s!"Balance: {s.ledger.balance organization owner}"]
  say [s!"({owner.spelling} in {organization})"]

def history (organization : String) (named : Option String) : Stepwise σ PUnit := do
  let owner ← owner disk c named
  let s ← loadService disk c
  let transactions := s.ledger.transactionsOf organization owner
  if transactions = [] then
    say ["No transactions"]
  transactions.forM fun tx => say [historyLine owner tx]

/-- Rebuilds the indices of one organization, given whether all were in order so far. -/
def verifyNext (l : Ledger) (all : Bool) (organization : String) : Stepwise σ Bool := do
  let same ← cash (l.verifyIndices organization)
  let mark := if same then "✅" else "❌"
  say [s!"{mark} {organization} ({(l.log organization).length} transactions)"]
  return all && same

def verify (named : Option String) : Stepwise σ PUnit := do
  let s ← loadService disk c
  let organizations := match named with
    | some organization => [organization]
    | none => s.ledger.organizations
  let all ← organizations.foldlM (verifyNext s.ledger) true
  if all = false then
    throw .indexMismatch

def command : Command → Stepwise σ PUnit
  | .keygen secret force => keygen disk c secret force
  | .address => address disk c
  | .registerOrganizer organization named => registerOrganizer disk c organization named
  | .issue organization amount beneficiaries => issue disk c organization amount beneficiaries
  | .send organization recipient amount => send disk c organization recipient amount
  | .balance organization named => balance disk c organization named
  | .history organization named => history disk c organization named
  | .verify named => verify disk c named

/-- The variables and settings first, and then the command. -/
def invoke (i : Invocation) (e : Environment) (now : String) (fresh : KeyPair) :
    Stepwise σ PUnit := do
  match ← onDisk (disk.loadEnvironment? e) with
  | none => throw .variableValue
  | some e => command disk (i.context e now fresh) i.command

/-- A plan carried out, as a step. -/
def ofPlan (plan : Plan) : Stepwise σ PUnit := fun s =>
  let (result, w) := disk.carryOut plan s.disk
  match result.failure with
  | none => .ok ⟨⟩ ⟨w, s.said ++ result.said⟩
  | some failure => .error failure ⟨w, s.said ++ result.said⟩

end Steps

section Saying

variable {σ : Type}

theorem say_bind_say (lines more : List String) :
    (say lines >>= fun _ => say more : Stepwise σ PUnit) = say (lines ++ more) := by
  funext s
  have both : (say lines >>= fun _ => say more : Stepwise σ PUnit) s =
    .ok ⟨⟩ ((s.say lines).say more) := rfl
  rw [both, s.say_say]
  rfl

theorem say_nil : (say [] : Stepwise σ PUnit) = pure ⟨⟩ := by
  funext s
  have nothing : (say [] : Stepwise σ PUnit) s = .ok ⟨⟩ (s.say []) := rfl
  rw [nothing, s.say_nil]
  rfl

theorem forM_say {α : Type} (line : α → String) (l : List α) :
    (l.forM fun a => say [line a] : Stepwise σ PUnit) = say (l.map line) := by
  induction l with
  | nil => exact say_nil.symm
  | cons a rest ih =>
    have step : ((a :: rest).forM fun a => say [line a] : Stepwise σ PUnit) =
      (say [line a] >>= fun _ => rest.forM fun a => say [line a]) := rfl
    rw [step, ih, say_bind_say]
    rfl

theorem sayTransaction_eq (tx : Transaction) :
    (sayTransaction tx : Stepwise σ PUnit) = say (transactionLines tx) := by
  simp only [sayTransaction, forM_say, say_bind_say]
  simp only [transactionLines, List.append_assoc, List.cons_append, List.nil_append]

end Saying

section Runs

variable {σ : Type} {disk : Disk (StateM σ)} {c : Context}

/-- A step that comes to a result, or fails, without doing anything can be replaced by the result. -/
theorem run_bind_congr {α β : Type} {s : Progress σ} {step : Stepwise σ α} {x : Except Failure α}
    (run : step s = (MonadExcept.ofExcept x : Stepwise σ α) s) (f : α → Stepwise σ β) :
    (step >>= f) s = ((MonadExcept.ofExcept x : Stepwise σ α) >>= f) s := by
  cases x with
  | error failure => exact run_bind_of_error run f
  | ok a => exact run_bind_of_ok run f

theorem run_step {α β γ : Type} {s : Progress σ} {step : Stepwise σ α} {x : Except Failure α}
    (run : step s = (MonadExcept.ofExcept x : Stepwise σ α) s) {f : α → Stepwise σ γ}
    {g : α → Except Failure β} {k : β → Stepwise σ γ}
    (rest : ∀ a, f a s = (MonadExcept.ofExcept (g a) >>= k) s) :
    (step >>= f) s = (MonadExcept.ofExcept (x >>= g) >>= k) s := by
  rw [run_bind_congr run]
  cases x with
  | error failure => rfl
  | ok a => exact rest a

theorem run_save (path : String) (bytes : List UInt8) (s : Progress σ) :
    save disk path bytes s =
      match (disk.replace path bytes s.disk).1 with
      | .ok () => .ok ⟨⟩ { s with disk := (disk.replace path bytes s.disk).2 }
      | .error fault =>
        .error (.writing path fault) { s with disk := (disk.replace path bytes s.disk).2 } := by
  have replaced : onDisk (disk.replace path bytes) s = .ok (disk.replace path bytes s.disk).1
    { s with disk := (disk.replace path bytes s.disk).2 } := rfl
  rw [save, run_bind_of_ok replaced]
  cases (disk.replace path bytes s.disk).1 <;> rfl

/-- One organization after the other, up to the first whose log cannot be replayed. -/
theorem run_verifyNext (l : Ledger) (organizations : List String) (all : Bool) (s : Progress σ) :
    organizations.foldlM (verifyNext l) all s =
      match verifyAll l organizations with
      | (lines, .ok rest) => .ok (all && rest) (s.say lines)
      | (lines, .error failure) => .error failure (s.say lines) := by
  induction organizations generalizing all s with
  | nil =>
    simp only [verifyAll, s.say_nil, Bool.and_true]
    rfl
  | cons organization rest ih =>
    have step : (organization :: rest).foldlM (verifyNext l) all s =
      (verifyNext l all organization >>= fun all => rest.foldlM (verifyNext l) all) s := rfl
    rw [step]
    cases verified : l.verifyIndices organization with
    | error cause =>
      have stopped : verifyNext l all organization s = .error (.cash cause) s := by
        simp only [verifyNext, verified]
        rfl
      rw [run_bind_of_error stopped]
      simp only [verifyAll, verified, s.say_nil]
    | ok same =>
      let mark := if same then "✅" else "❌"
      have stepped : verifyNext l all organization s = .ok (all && same)
          (s.say [s!"{mark} {organization} ({(l.log organization).length} transactions)"]) := by
        simp only [verifyNext, verified]
        rfl
      rw [run_bind_of_ok stepped, ih]
      simp only [verifyAll, verified]
      obtain ⟨lines, result⟩ := verifyAll l rest
      cases result <;>
        simp only [Except.map, Progress.say_say, List.cons_append, List.nil_append, Bool.and_assoc,
          mark]

theorem run_verifyAll (l : Ledger) (organizations : List String) (s : Progress σ) :
    (organizations.foldlM (verifyNext l) true >>= fun all =>
        if all = false then throw .indexMismatch else pure ⟨⟩ : Stepwise σ PUnit) s =
      (MonadExcept.ofExcept (match verifyAll l organizations with
        | (lines, .ok true) => pure ⟨lines, .done⟩
        | (lines, .ok false) => pure ⟨lines, .failed .indexMismatch⟩
        | (lines, .error failure) => pure ⟨lines, .failed failure⟩) >>= ofPlan disk) s := by
  have run := run_verifyNext l organizations true s
  generalize verifyAll l organizations = answer at run ⊢
  obtain ⟨lines, result⟩ := answer
  cases result with
  | error failure => exact run_bind_of_error run _
  | ok all =>
    refine (run_bind_of_ok run _).trans ?_
    cases all <;> rfl

section Plans

variable (s : Progress σ)

theorem run_ofPlan_said (said : List String) (ending : Ending) :
    ofPlan disk ⟨said, ending⟩ s = ofPlan disk ⟨[], ending⟩ (s.say said) := by
  unfold ofPlan
  rw [Disk.carryOut_eq, Disk.carryOut_eq]
  cases ending with
  | done => simp only [Progress.say, List.append_nil]
  | failed failure => simp only [Progress.say, List.append_nil]
  | save path bytes more =>
    simp only [Progress.say]
    cases (disk.replace path bytes s.disk).1 <;>
      simp only [List.append_assoc, List.nil_append, List.append_nil]

theorem run_ofPlan_save (path : String) (bytes : List UInt8) (said : List String) :
    ofPlan disk ⟨[], .save path bytes said⟩ s =
      (save disk path bytes >>= fun _ => say said) s := by
  unfold ofPlan
  rw [Disk.carryOut_eq]
  have saved : save disk path bytes s = _ := run_save path bytes s
  simp only
  cases result : (disk.replace path bytes s.disk).1 with
  | ok =>
    rw [result] at saved
    rw [run_bind_of_ok saved]
    rfl
  | error fault =>
    rw [result] at saved
    rw [run_bind_of_error saved]
    simp only [List.append_nil]

theorem run_ofPlan_ofExcept (x : Except Failure Plan) :
    ofPlan disk (.ofExcept x) s = (MonadExcept.ofExcept x >>= ofPlan disk) s := by
  cases x with
  | ok plan => rfl
  | error failure => exact congrArg (EStateM.Result.error failure) s.say_nil

theorem run_ofPlan_announce (line : String) (x : Except Failure Ending) :
    ofPlan disk (.announce line x) s =
      (MonadExcept.ofExcept x >>= fun ending => ofPlan disk ⟨[], ending⟩) (s.say [line]) := by
  cases x with
  | ok ending => exact run_ofPlan_said s [line] ending
  | error failure => rfl

theorem completion_ofPlan (plan : Plan) (w : σ) :
    Progress.completion (ofPlan disk plan ⟨w, []⟩) = disk.carryOut plan w := by
  unfold ofPlan
  obtain ⟨⟨said, failure⟩, after⟩ := disk.carryOut plan w
  cases failure <;> rfl

end Plans

theorem ofCash_bind {α β : Type} (x : Except CashError α) (f : α → Except CashError β) :
    Failure.ofCash (x >>= f) = Failure.ofCash x >>= fun a => Failure.ofCash (f a) := by
  cases x <;> rfl

section Files

variable (h : disk.Reads) (s : Progress σ)

include h

theorem run_find? (path : String) :
    onDisk (disk.find? path) s = .ok (disk.look s.disk path) s := by
  rw [onDisk, h.run_find?]

theorem run_isThere (path : String) :
    onDisk (disk.isThere path) s = .ok (disk.look s.disk path).isSome s := by
  have found : (disk.look s.disk path).isSome = (disk.isThere path s.disk).1 := by
    unfold Disk.look Disk.find?
    rw [Disk.run_bind]
    cases (disk.isThere path s.disk).1 <;> rfl
  rw [onDisk, h.isThere, found]

theorem run_loadKey :
    loadKey disk c s = (MonadExcept.ofExcept (c.loadKey (disk.look s.disk c.keyPath)) :
      Stepwise σ KeyFile) s := run_bind_of_ok (run_find? h s c.keyPath) _

theorem run_loadState :
    loadState disk c s = (MonadExcept.ofExcept (c.loadState (disk.look s.disk c.statePath)) :
      Stepwise σ WalletState) s := run_bind_of_ok (run_find? h s c.statePath) _

theorem run_loadService :
    loadService disk c s = (MonadExcept.ofExcept (c.loadService (disk.look s.disk c.statePath)) :
      Stepwise σ Service) s := by
  refine (run_bind_congr (run_loadState h s) _).trans ?_
  unfold Context.loadService
  cases c.loadState (disk.look s.disk c.statePath) <;> rfl

theorem run_loadKey_map {α : Type} (f : KeyFile → α) :
    (do return f (← loadKey disk c) : Stepwise σ α) s =
      (MonadExcept.ofExcept ((c.loadKey (disk.look s.disk c.keyPath)).map f) : Stepwise σ α) s := by
  refine (run_bind_congr (run_loadKey h s) _).trans ?_
  cases c.loadKey (disk.look s.disk c.keyPath) <;> rfl

theorem run_owner (named : Option String) :
    owner disk c named s = (MonadExcept.ofExcept (c.owner (disk.look s.disk c.keyPath) named) :
      Stepwise σ Hash) s := by
  cases named with
  | some text => rfl
  | none => exact run_loadKey_map h s KeyFile.address

theorem run_organizer (named : Option String) :
    organizer disk c named s =
      (MonadExcept.ofExcept (c.organizer (disk.look s.disk c.keyPath) named) :
        Stepwise σ PublicKey) s := by
  cases named with
  | some text => rfl
  | none => exact run_loadKey_map h s KeyFile.publicKey

end Files

/-! ### Each command and its plan -/

section Commands

variable (h : disk.Reads) (c : Context) (s : Progress σ)

include h

theorem run_address :
    address disk c s = ofPlan disk (Plan.address c (disk.look s.disk c.keyPath)) s := by
  rw [Plan.address, run_ofPlan_ofExcept]
  refine run_step (run_loadKey h s) fun k => ?_
  simp only [say_bind_say]
  rfl

theorem run_balance (organization : String) (named : Option String) :
    balance disk c organization named s =
      ofPlan disk (Plan.balance c (disk.look s.disk c.keyPath) (disk.look s.disk c.statePath)
        organization named) s := by
  rw [Plan.balance, run_ofPlan_ofExcept]
  refine run_step (run_owner h s named) fun address => ?_
  refine run_step (run_loadService h s) fun service => ?_
  simp only [say_bind_say]
  rfl

theorem run_history (organization : String) (named : Option String) :
    history disk c organization named s =
      ofPlan disk (Plan.history c (disk.look s.disk c.keyPath) (disk.look s.disk c.statePath)
        organization named) s := by
  rw [Plan.history, run_ofPlan_ofExcept]
  refine run_step (run_owner h s named) fun address => ?_
  refine run_step (run_loadService h s) fun service => ?_
  simp only [forM_say]
  cases service.ledger.transactionsOf organization address with
  | nil =>
    simp only [List.map_nil, say_nil]
    rfl
  | cons tx rest => rfl

theorem run_keygen (secret : Option String) (force : Bool) :
    keygen disk c secret force s =
      ofPlan disk (Plan.keygen c (disk.look s.disk c.keyPath) secret force) s := by
  rw [keygen, run_bind_of_ok (run_isThere h s c.keyPath)]
  unfold Plan.keygen
  split
  · simp only [say_bind_say]
    rfl
  · simp only [say_bind_say]
    cases secret with
    | none =>
      have made : makeKeys c none s = .ok c.fresh (s.say ["🔐 Generating new key..."]) := rfl
      rw [run_bind_of_ok made, run_ofPlan_said, Context.saveKeys, run_ofPlan_save]
      rfl
    | some text =>
      simp only
      rw [run_ofPlan_announce]
      cases imported : KeyPair.ofText (Text.trim text) with
      | error cause =>
        have refused : makeKeys c (some text) s =
            .error (.secretText cause) (s.say ["🔑 Importing key..."]) := by
          simp only [makeKeys, imported]
          rfl
        exact run_bind_of_error refused _
      | ok keys =>
        have made : makeKeys c (some text) s = .ok keys (s.say ["🔑 Importing key..."]) := by
          simp only [makeKeys, imported]
          rfl
        rw [run_bind_of_ok made]
        exact (run_ofPlan_save _ _ _ _).symm

theorem run_registerOrganizer (organization : String) (named : Option String) :
    registerOrganizer disk c organization named s =
      ofPlan disk (Plan.registerOrganizer c (disk.look s.disk c.keyPath)
        (disk.look s.disk c.statePath) organization named) s := by
  rw [Plan.registerOrganizer, run_ofPlan_ofExcept]
  refine run_step (run_organizer h s named) fun key => ?_
  refine run_step (run_loadState h s) fun state => ?_
  let changed : WalletState := { state with organizers := state.organizers.insert organization key }
  have planned (warning : List String) :
      ofPlan disk ⟨warning, c.saveState changed [s!"✅ {key.text} may issue cash in {organization}"]⟩ s =
        (say warning >>= fun _ => save disk c.statePath changed.encode >>= fun _ =>
          say [s!"✅ {key.text} may issue cash in {organization}"]) s :=
    (run_ofPlan_said s warning _).trans (run_ofPlan_save _ _ _ _)
  refine Eq.trans ?_ (planned _).symm
  cases state.organizers.find? organization with
  | none =>
    rw [say_nil]
    rfl
  | some previous =>
    by_cases same : previous = key
    · simp only [warnOfOther, if_pos same, say_nil]
      rfl
    · simp only [warnOfOther, if_neg same]
      rfl

theorem run_issue (organization amount : String) (beneficiaries : List String) :
    issue disk c organization amount beneficiaries s =
      ofPlan disk (Plan.issue c (disk.look s.disk c.keyPath) (disk.look s.disk c.statePath)
        organization amount beneficiaries) s := by
  rw [Plan.issue, run_ofPlan_ofExcept]
  refine run_step (run_loadKey h s) fun k => ?_
  refine run_step rfl fun keys => ?_
  refine run_step rfl fun amount => ?_
  refine run_step rfl fun addresses => ?_
  refine run_step (run_loadService h s) fun service => ?_
  cases Grant.request service.registry organization keys.publicKey with
  | error cause => rfl
  | ok grant =>
    refine Eq.trans ?_ (run_ofPlan_announce s _ _).symm
    simp only [ofCash_bind]
    refine run_step (s := s.say ["🪙 Issuing..."]) rfl fun ⟨queued, tx⟩ => ?_
    refine run_step rfl fun ⟨next, outcomes⟩ => ?_
    simp only [sayTransaction_eq, say_bind_say]
    exact (run_ofPlan_save _ _ _ _).symm

theorem run_send (organization recipient amount : String) :
    send disk c organization recipient amount s =
      ofPlan disk (Plan.send c (disk.look s.disk c.keyPath) (disk.look s.disk c.statePath)
        organization recipient amount) s := by
  rw [Plan.send, run_ofPlan_ofExcept]
  refine run_step (run_loadKey h s) fun k => ?_
  refine run_step rfl fun keys => ?_
  refine run_step rfl fun owner => ?_
  refine run_step rfl fun amount => ?_
  refine run_step (run_loadService h s) fun service => ?_
  refine Eq.trans ?_ (run_ofPlan_announce s _ _).symm
  simp only [ofCash_bind]
  refine run_step (s := s.say ["📤 Preparing transaction..."]) rfl fun ⟨queued, tx⟩ => ?_
  refine run_step rfl fun ⟨next, outcomes⟩ => ?_
  refine Eq.trans ?_ (run_ofPlan_save _ _ _ _).symm
  by_cases known : Outcome.alreadyApplied ∈ outcomes
  · simp only [sayTransaction_eq, say_bind_say, if_pos known, List.append_assoc]
  · simp only [sayTransaction_eq, say_bind_say, if_neg known, List.append_nil]

theorem run_verify (named : Option String) :
    verify disk c named s = ofPlan disk (Plan.verify c (disk.look s.disk c.statePath) named) s := by
  rw [Plan.verify, run_ofPlan_ofExcept]
  refine run_step (run_loadService h s) fun service => ?_
  cases named with
  | some organization => exact run_verifyAll service.ledger [organization] s
  | none => exact run_verifyAll service.ledger service.ledger.organizations s

/-- Step by step a command comes to what its plan, made from what is in the files, comes to. -/
theorem run_command (command : Command) :
    Stepwise.command disk c command s =
      ofPlan disk (command.plan c (disk.look s.disk c.keyPath) (disk.look s.disk c.statePath)) s := by
  cases command with
  | keygen secret force => exact run_keygen h c s secret force
  | address => exact run_address h c s
  | registerOrganizer organization named => exact run_registerOrganizer h c s organization named
  | issue organization amount beneficiaries =>
    exact run_issue h c s organization amount beneficiaries
  | send organization recipient amount => exact run_send h c s organization recipient amount
  | balance organization named => exact run_balance h c s organization named
  | history organization named => exact run_history h c s organization named
  | verify named => exact run_verify h c s named

end Commands

/-- The same from the variables on: looking at both files beforehand changes nothing. -/
theorem completion_invoke (h : disk.Reads) (i : Invocation) (e : Environment) (now : String)
    (fresh : KeyPair) (w : σ) :
    Progress.completion (invoke disk i e now fresh ⟨w, []⟩) = disk.invoke i e now fresh w := by
  have unchanged := h.state_loadEnvironment? e w
  have loaded : onDisk (disk.loadEnvironment? e) (⟨w, []⟩ : Progress σ) =
      .ok (disk.loadEnvironment? e w).1 ⟨w, []⟩ := by
    rw [onDisk, unchanged]
  rw [invoke, run_bind_of_ok loaded, Disk.invoke, Disk.run_bind, unchanged]
  cases (disk.loadEnvironment? e w).1 with
  | none => rfl
  | some found =>
    simp only [run_command h, completion_ofPlan, Disk.run_bind, h.run_find?]

end Runs

end Stepwise

namespace WalletCall

variable {σ : Type} {disk : Disk (StateM σ)} {call : WalletCall} {w : σ}

/-- The call, one step after the other. -/
def stepwise (disk : Disk (StateM σ)) (call : WalletCall) (w : σ) :
    Except Options.Refusal Completion × σ :=
  match Invocation.ofArguments call.arguments with
  | .error refusal => (.error refusal, w)
  | .ok i =>
    let (completion, after) := Progress.completion
      (Stepwise.invoke disk i call.environment call.now call.fresh ⟨w, []⟩)
    (.ok completion, after)

/-- Step by step a call comes to the same end, the same lines and the same disk. -/
theorem stepwise_eq_perform (h : disk.Reads) : call.stepwise disk w = call.perform disk w := by
  unfold stepwise perform Disk.run
  cases Invocation.ofArguments call.arguments with
  | error refusal => rfl
  | ok i =>
    simp only [Stepwise.completion_invoke h]
    rfl

end WalletCall

end CoinLedger
