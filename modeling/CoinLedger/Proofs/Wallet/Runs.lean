import CoinLedger.Proofs.Files.Tree
import CoinLedger.Proofs.Wallet.Calls
import CoinLedger.Proofs.Wallet.Issuance

/-!
Uses of a wallet one after the other, from command lines and environments to the files that they leave.
Main statement: the state file of a wallet can always be opened, keeps the mode that it was begun with,
loses nothing of its logs, and stands every check of all of its organizations.
-/

namespace CoinLedger

section Calls

variable {σ : Type} (disk : Disk (StateM σ))

namespace WalletCall

/-- The state of the disk after the calls. -/
def after (w : σ) (calls : List WalletCall) : σ :=
  calls.foldl (fun w call => (call.perform disk w).2) w

/-- All calls are to the wallet of the directory. -/
def KeepTo (directory : String) : σ → List WalletCall → Prop
  | _, [] => True
  | w, call :: rest =>
    (∀ task ∈ call.task? disk w, task.2.Usual directory) ∧
      KeepTo directory (call.perform disk w).2 rest

/-- The mode in the settings of the first call that leaves a state file. -/
def firstMode? (directory : String) : σ → List WalletCall → Option Accounting
  | _, [] => none
  | w, call :: rest =>
    if (disk.look (call.perform disk w).2 (stateFileOf directory)).isSome then
      (call.task? disk w).map fun task => task.2.settings.accounting
    else firstMode? directory (call.perform disk w).2 rest

end WalletCall

/-- The state file is there, can be read, and is restored to the ledger. -/
def RestoresTo (directory : String) (w : σ) (l : Ledger) : Prop :=
  ∃ bytes s, disk.look w (stateFileOf directory) = some (.ok bytes) ∧
    WalletState.decode? bytes = some s ∧ s.snapshot.restore = .ok l

/-- What is known of the files of a wallet after calls that began without a state file. -/
structure SoundAfter (directory : String) (w : σ) (calls : List WalletCall) : Prop where
  restores : disk.look (WalletCall.after disk w calls) (stateFileOf directory) = none ∨
    ∃ l, RestoresTo disk directory (WalletCall.after disk w calls) l
  mode : ∀ l, RestoresTo disk directory (WalletCall.after disk w calls) l →
    WalletCall.firstMode? disk directory w calls = some l.mode
  grows : ∀ before rest, calls = before ++ rest →
    ∀ l, RestoresTo disk directory (WalletCall.after disk w before) l →
      ∃ later, RestoresTo disk directory (WalletCall.after disk w calls) later ∧
        ∀ organization, l.log organization <+: later.log organization
  verifies : ∀ (call : WalletCall) (c : Context),
    call.task? disk (WalletCall.after disk w calls) = some (.verify none, c) →
    c.Usual directory → c.settings.capacity ≤ Context.queueLimit →
      ∃ l : Ledger, (RestoresTo disk directory (WalletCall.after disk w calls) l ∨
          disk.look (WalletCall.after disk w calls) (stateFileOf directory) = none ∧
            l = .empty c.settings.accounting) ∧
        call.perform disk (WalletCall.after disk w calls) =
          (.ok ⟨l.organizations.map (verifiedLine l), none⟩, WalletCall.after disk w calls)

end Calls

/-- The state file is one that a wallet wrote, with the ledger in it. -/
def HasLedger {σ : Type} (disk : Disk (StateM σ)) (directory : String) (w : σ) (l : Ledger) : Prop :=
  ∃ bytes, disk.look w (stateFileOf directory) = some (.ok bytes) ∧ WalletState.Holds bytes l

namespace WalletCall

variable {σ : Type} {disk : Disk (StateM σ)} {directory : String}
  (h : disk.Returns (walletFiles directory))

section Step

variable {call : WalletCall} {w : σ}

include h

/-- A call leaves the state file, or writes one whose ledger grew out of the one that was opened. -/
theorem look_perform {command : Command} {c : Context}
    (task : call.task? disk w = some (command, c)) (usual : c.Usual directory) {l : Ledger}
    (opens : c.Opens (disk.look w (stateFileOf directory)) l) :
    disk.look (call.perform disk w).2 (stateFileOf directory) =
        disk.look w (stateFileOf directory) ∨
      ∃ later, HasLedger disk directory (call.perform disk w).2 later ∧ l.Grows later := by
  obtain ⟨ending, ends, does⟩ := does_of_task? h.toReads task usual
  have saves := ends.maySave opens
  cases ending with
  | done => exact .inl (congrArg (disk.look · _) does)
  | failed failure => exact .inl (congrArg (disk.look · _) does.1)
  | save path bytes said =>
    rw [does.1]
    rcases saves with rfl | ⟨rfl, later, holds, grows⟩
    · rw [usual.keyPath]
      exact .inl (look_replace_other h .key .state (join_ne_join directory (by decide)) bytes w)
    · rw [usual.statePath]
      exact (look_replace h .state bytes w).imp id fun written =>
        ⟨later, ⟨bytes, written, holds⟩, grows⟩

/-- Once there is a state file, every call leaves one with a ledger that grew out of it. -/
theorem hasLedger_perform (usual : ∀ task ∈ call.task? disk w, task.2.Usual directory) {l : Ledger}
    (has : HasLedger disk directory w l) :
    ∃ later, HasLedger disk directory (call.perform disk w).2 later ∧ l.Grows later := by
  cases task : call.task? disk w with
  | none =>
    rw [state_perform_of_task? h.toReads task]
    exact ⟨l, has, .refl l⟩
  | some task' =>
    obtain ⟨bytes, found, holds⟩ := has
    rcases look_perform h task (usual _ task) (.inr ⟨bytes, found, holds⟩) with same | grown
    · exact ⟨l, ⟨bytes, same.trans found, holds⟩, .refl l⟩
    · exact grown

/-- The first state file is in the mode of the settings of the call that makes it. -/
theorem mode_perform (usual : ∀ task ∈ call.task? disk w, task.2.Usual directory)
    (new : disk.look w (stateFileOf directory) = none) :
    disk.look (call.perform disk w).2 (stateFileOf directory) = none ∨
      ∃ l, HasLedger disk directory (call.perform disk w).2 l ∧
        (call.task? disk w).map (fun task => task.2.settings.accounting) = some l.mode := by
  cases task : call.task? disk w with
  | none =>
    rw [state_perform_of_task? h.toReads task]
    exact .inl new
  | some task' =>
    rcases look_perform h task (usual _ task) (.inl ⟨new, rfl⟩) with same | ⟨l, has, grows⟩
    · exact .inl (same.trans new)
    · exact .inr ⟨l, has, congrArg some grows.mode.symm⟩

end Step

section Run

variable {w : σ} {calls : List WalletCall}

theorem after_append (w : σ) (before rest : List WalletCall) :
    after disk w (before ++ rest) = after disk (after disk w before) rest := List.foldl_append

theorem after_cons {call : WalletCall} {next : σ} (ran : (call.perform disk w).2 = next) :
    after disk w (call :: calls) = after disk next calls := by
  rw [← ran]
  rfl

theorem KeepTo.cons {call : WalletCall} {command : Command} {c : Context} {next : σ}
    (task : call.task? disk w = some (command, c)) (usual : c.Usual directory)
    (ran : (call.perform disk w).2 = next) (rest : KeepTo disk directory next calls) :
    KeepTo disk directory w (call :: calls) := by
  refine ⟨fun other named => ?_, ran ▸ rest⟩
  cases task.symm.trans named
  exact usual

/-- The first call decides the mode if it leaves a state file. -/
theorem firstMode?_of_look {call : WalletCall} {command : Command} {c : Context} {next : σ}
    {found : Except FileFault (List UInt8)} (task : call.task? disk w = some (command, c))
    (ran : (call.perform disk w).2 = next)
    (left : disk.look next (stateFileOf directory) = some found) :
    firstMode? disk directory w (call :: calls) = some c.settings.accounting := by
  rw [firstMode?, ran, left, task]
  rfl

theorem KeepTo.append {before rest : List WalletCall}
    (kept : KeepTo disk directory w (before ++ rest)) :
    KeepTo disk directory w before ∧ KeepTo disk directory (after disk w before) rest := by
  induction before generalizing w with
  | nil => exact ⟨trivial, kept⟩
  | cons call before ih =>
    obtain ⟨usual, kept⟩ := kept
    exact (ih kept).imp (⟨usual, ·⟩) id

include h

theorem hasLedger_after (kept : KeepTo disk directory w calls) {l : Ledger}
    (has : HasLedger disk directory w l) :
    ∃ later, HasLedger disk directory (after disk w calls) later ∧ l.Grows later := by
  induction calls generalizing w l with
  | nil => exact ⟨l, has, .refl l⟩
  | cons call rest ih =>
    obtain ⟨mid, stepped, grows⟩ := hasLedger_perform h kept.1 has
    obtain ⟨later, run, more⟩ := ih kept.2 stepped
    exact ⟨later, run, grows.trans more⟩

/-- Without a state file at the start there is none at the end, or one in the mode it was begun with. -/
theorem mode_after (kept : KeepTo disk directory w calls)
    (new : disk.look w (stateFileOf directory) = none) :
    disk.look (after disk w calls) (stateFileOf directory) = none ∨
      ∃ l, HasLedger disk directory (after disk w calls) l ∧
        firstMode? disk directory w calls = some l.mode := by
  induction calls generalizing w with
  | nil => exact .inl new
  | cons call rest ih =>
    rw [firstMode?]
    rcases mode_perform h kept.1 new with still | ⟨l, has, mode⟩
    · rw [still]
      exact ih kept.2 still
    · obtain ⟨later, run, grows⟩ := hasLedger_after h kept.2 has
      obtain ⟨bytes, found, _⟩ := has
      refine .inr ⟨later, run, ?_⟩
      rw [found, if_pos (by rfl), mode, grows.mode]

end Run

end WalletCall

section Sound

variable {σ : Type} {disk : Disk (StateM σ)} {directory : String} {w : σ} {l : Ledger}

theorem HasLedger.restoresTo (has : HasLedger disk directory w l) :
    RestoresTo disk directory w l := by
  obtain ⟨bytes, found, holds⟩ := has
  obtain ⟨s, decoded, _, restored, _⟩ := holds.decode?
  exact ⟨bytes, s, found, decoded, restored⟩

theorem RestoresTo.unique {other : Ledger} (h : RestoresTo disk directory w l)
    (k : RestoresTo disk directory w other) : l = other := by
  obtain ⟨bytes, s, found, decoded, restored⟩ := h
  obtain ⟨_, _, same, again, result⟩ := k
  cases Except.ok.inj (Option.some.inj (found.symm.trans same))
  cases Option.some.inj (decoded.symm.trans again)
  exact Except.ok.inj (restored.symm.trans result)

/-- A question about all organizations changes nothing, and finds each of them in order. -/
theorem WalletCall.perform_verify (h : disk.Reads) {call : WalletCall} {c : Context}
    (task : call.task? disk w = some (.verify none, c)) (usual : c.Usual directory)
    (room : c.settings.capacity ≤ Context.queueLimit)
    (opens : c.Opens (disk.look w (stateFileOf directory)) l) :
    call.perform disk w = (.ok ⟨l.organizations.map (verifiedLine l), none⟩, w) := by
  rw [perform_of_task? h task, usual.statePath]
  have plan := Plan.verify_eq opens room
  simp only [Command.plan, plan]
  rfl

/-- Whatever a wallet is used for from the start, call after call and under changing settings, its state
file stays sound on a disk that returns what was written. The first calls of a run are one too, so this
holds after each call. -/
theorem WalletCall.soundAfter (h : disk.Returns (walletFiles directory)) {calls : List WalletCall}
    (new : disk.look w (stateFileOf directory) = none) (kept : KeepTo disk directory w calls) :
    SoundAfter disk directory w calls where
  restores := (mode_after h kept new).imp id fun ⟨l, has, _⟩ => ⟨l, has.restoresTo⟩
  mode := by
    intro l restores
    rcases mode_after h kept new with none | ⟨other, has, mode⟩
    · obtain ⟨_, _, found, _⟩ := restores
      exact nomatch none.symm.trans found
    · rw [restores.unique has.restoresTo, mode]
  grows := by
    rintro before rest rfl l restores
    obtain ⟨first, second⟩ := kept.append
    rcases mode_after h first new with none | ⟨other, has, _⟩
    · obtain ⟨_, _, found, _⟩ := restores
      exact nomatch none.symm.trans found
    · obtain ⟨later, run, grows⟩ := hasLedger_after h second has
      rw [after_append, restores.unique has.restoresTo]
      exact ⟨later, run.restoresTo, grows.log⟩
  verifies := by
    intro call c task usual room
    rcases mode_after h kept new with none | ⟨l, has, _⟩
    · exact ⟨_, .inr ⟨none, rfl⟩, perform_verify h.toReads task usual room (.inl ⟨none, rfl⟩)⟩
    · exact ⟨l, .inl has.restoresTo, perform_verify h.toReads task usual room (.inr has)⟩

end Sound

/-! A wallet is registered as the organizer of "L1" under the strict mode. Under settings that name the
other mode it then issues a hundred coins to itself, and fifty more. -/

section Issuances

open Service (payerKey payerAddress verify_thirty Issued issued_attempt)

set_option maxRecDepth 100000

def issuerKeys : KeyPair := ⟨List.replicate 32 1, rfl⟩

theorem publicKey_issuerKeys : issuerKeys.publicKey = payerKey := by decide +kernel

def issuerFile : KeyFile where
  publicKey := payerKey
  address := payerAddress
  secretText := "AQEBAQEBAQEBAQEBAQEBAQEBAQEBAQEBAQEBAQEBAQE="
  createdAt := "2024-01-01T00:00:00Z"

theorem keys_issuerFile : issuerFile.keys = .ok issuerKeys := by
  have secret : KeyPair.ofText issuerFile.secretText = .ok issuerKeys := by decide +kernel
  simp only [KeyFile.keys, secret, publicKey_issuerKeys]
  rfl

theorem loadKey_issuerFile (c : Context) :
    c.loadKey (some (.ok issuerFile.encode)) = .ok issuerFile := by
  have decoded : KeyFile.decode? issuerFile.encode = some issuerFile := by decide +kernel
  have text : (Text.ofUtf8? issuerFile.encode).isNone = false := by decide +kernel
  simp only [Context.loadKey, decoded, text]
  rfl

/-- What the wallet saves of a ledger. -/
def issuerState (l : Ledger) : WalletState :=
  ⟨.insert .empty "L1" payerKey, .capture "2024-01-01T00:00:00Z" l⟩

theorem keysOnCurve_issuerState (l : Ledger) : KeysOnCurve (issuerState l).organizers :=
  KeysOnCurve.empty.insert "L1" (PublicKey.isPoint_of_verify verify_thirty)

def fifty : Transaction := .ofBody (issuanceBody [payerAddress] 50 (by decide))

def afterHundred : Ledger := (Ledger.empty .strictUtxo).attempt "L1" Service.grant

def afterFifty : Ledger := afterHundred.attempt "L1" fifty

theorem buildIssuance_hundred : buildIssuance [payerAddress] 100 = .ok Service.grant :=
  buildIssuance_eq_ok_iff.2 ⟨by decide, by decide, by decide, by decide, Service.grant.eq_ofBody⟩

theorem buildIssuance_fifty : buildIssuance [payerAddress] 50 = .ok fifty :=
  buildIssuance_eq_ok_iff.2 ⟨by decide, by decide, by decide, _, rfl⟩

theorem id_fifty_ne : Service.grantId.bytes ≠ fifty.id.bytes := by decide +kernel

theorem coins_lt (owner : Hash) (coins : Nat) (h : coins < coinBound) :
    coins * occurrences owner [payerAddress] < coinBound := by
  have few : occurrences owner [payerAddress] ≤ 1 := List.countP_le_length
  calc coins * occurrences owner [payerAddress] ≤ coins * 1 := Nat.mul_le_mul_left coins few
    _ < coinBound := by rwa [Nat.mul_one]

theorem issued_hundred :
    (Ledger.empty .strictUtxo).apply "L1" Service.grant = .ok (afterHundred, .applied) ∧
      Issued (.empty .strictUtxo) afterHundred "L1" [payerAddress] 100 Service.grant := by
  have fits (owner : Hash) : 0 + 100 * occurrences owner [payerAddress] < coinBound := by
    rw [Nat.zero_add]
    exact coins_lt owner 100 (by decide)
  exact issued_attempt (.empty .strictUtxo) buildIssuance_hundred (fun _ none => nomatch none) fits

theorem reached_afterHundred : afterHundred.Reached :=
  (Ledger.Reached.empty .strictUtxo).attempt "L1" Service.grant

theorem issued_fifty :
    afterHundred.apply "L1" fifty = .ok (afterFifty, .applied) ∧
      Issued afterHundred afterFifty "L1" [payerAddress] 50 fifty := by
  -- The two issuances differ in their amounts alone, and so in their ids.
  have fresh : ∀ t ∈ afterHundred.log "L1", t.id.bytes ≠ fifty.id.bytes := by
    intro t member
    rw [issued_hundred.2.log] at member
    cases List.mem_singleton.1 member
    exact id_fifty_ne
  have fits (owner : Hash) :
      afterHundred.balance "L1" owner + 50 * occurrences owner [payerAddress] < coinBound := by
    have balance : afterHundred.balance "L1" owner = 0 + 100 * occurrences owner [payerAddress] :=
      issued_hundred.2.balances owner
    rw [balance, Nat.zero_add, ← Nat.add_mul]
    exact coins_lt owner 150 (by decide)
  exact issued_attempt reached_afterHundred buildIssuance_fifty fresh fits

def useUnder (mode : String) (arguments : List String) : WalletCall where
  arguments := "--dir" :: "." :: arguments
  environment := .ofBindings [(Settings.accountingVariable, mode)]
  now := "2024-01-01T00:00:00Z"
  fresh := issuerKeys

def contextUnder (mode : String) : Context :=
  Invocation.context ⟨some ".", none, false, .address⟩
    (.ofBindings [(Settings.accountingVariable, mode)]) "2024-01-01T00:00:00Z" issuerKeys

theorem usual_contextUnder :
    ∀ mode ∈ ["strict-utxo", "running-credit"], (contextUnder mode).Usual "." := by decide +kernel

def ownRegistration : WalletCall := useUnder "strict-utxo" ["register-organizer", "--lao", "L1"]

def ownIssuance (amount : String) : WalletCall :=
  useUnder "running-credit"
    ["issue", "--lao", "L1", "--amount", amount, "--to", "NHUPmL1Z_PyUbaRaqr6TO-FUpLU="]

def issuerTree : FileTree :=
  (FileTree.disk.put (keyFileOf ".") issuerFile.encode (.ofWorking ["home"])).2

def savedIn (l : Ledger) (w : FileTree) : FileTree :=
  (FileTree.disk.replace (stateFileOf ".") (issuerState l).encode w).2

theorem returns_working : FileTree.disk.Returns (walletFiles ".") :=
  FileTree.returns (by decide +kernel)

/-- The two files as they are to be found, and no file of variables. -/
structure Prepared (w : FileTree) (stateFile : Finding) : Prop where
  key : FileTree.disk.look w (keyFileOf ".") = some (.ok issuerFile.encode)
  state : FileTree.disk.look w (stateFileOf ".") = stateFile
  plain : (FileTree.disk.isDirectory Disk.environmentFile w).1 = false
  absent : FileTree.disk.look w Disk.environmentFile = none

theorem prepared_issuerTree : Prepared issuerTree none where
  key := returns_working.put _ (join_mem_walletFiles "." (by decide)) _ _ (by decide +kernel)
  state := by decide +kernel
  plain := by decide +kernel
  absent := by decide +kernel

section Saved

variable {w : FileTree} {stateFile : Finding} (prepared : Prepared w stateFile) {l : Ledger}
  (done : (FileTree.disk.replace (stateFileOf ".") (issuerState l).encode w).1 = .ok ())

include done

theorem look_savedIn :
    FileTree.disk.look (savedIn l w) (stateFileOf ".") = some (.ok (issuerState l).encode) :=
  WalletCall.look_replace_of_ok returns_working .state done

theorem restoresTo_savedIn (reached : l.Reached) :
    RestoresTo FileTree.disk "." (savedIn l w) l :=
  HasLedger.restoresTo
    ⟨_, look_savedIn done, _, _, keysOnCurve_issuerState l, reached, rfl⟩

include prepared

theorem prepared_savedIn
    (plain : (FileTree.disk.isDirectory Disk.environmentFile (savedIn l w)).1 = false)
    (absent : FileTree.disk.look (savedIn l w) Disk.environmentFile = none) :
    Prepared (savedIn l w) (some (.ok (issuerState l).encode)) where
  key := (WalletCall.look_replace_other returns_working .state .key
    (join_ne_join "." (by decide)) _ _).trans prepared.key
  state := look_savedIn done
  plain := plain
  absent := absent

end Saved

theorem perform_ownIssuance (amount : String) {w : FileTree} {l next : Ledger} {outcome : Outcome}
    (prepared : Prepared w (some (.ok (issuerState l).encode))) (reached : l.Reached)
    {value : Int64} {tx : Transaction}
    (parsed : Invocation.ofArguments (ownIssuance amount).arguments =
      .ok ⟨some ".", none, false, .issue "L1" amount ["NHUPmL1Z_PyUbaRaqr6TO-FUpLU="]⟩)
    (whole : amountOfText amount = .ok value) (built : buildIssuance [payerAddress] value = .ok tx)
    (applied : l.apply "L1" tx = .ok (next, outcome)) :
    (ownIssuance amount).task? FileTree.disk w =
        some (.issue "L1" amount ["NHUPmL1Z_PyUbaRaqr6TO-FUpLU="], contextUnder "running-credit") ∧
      ((ownIssuance amount).perform FileTree.disk w).2 = savedIn next w := by
  have task : (ownIssuance amount).task? FileTree.disk w =
      some (.issue "L1" amount ["NHUPmL1Z_PyUbaRaqr6TO-FUpLU="], contextUnder "running-credit") :=
    WalletCall.task?_of_absent returns_working.toReads parsed prepared.plain prepared.absent
  refine ⟨task, ?_⟩
  have addresses : addressesOfTexts ["NHUPmL1Z_PyUbaRaqr6TO-FUpLU="] = .ok [payerAddress] := by
    decide +kernel
  have room : (contextUnder "running-credit").settings.capacity ≤ Context.queueLimit := by
    decide +kernel
  have holder : (issuerState l).organizers.find? "L1" = some issuerKeys.publicKey := by
    rw [publicKey_issuerKeys]
    exact Table.find?_insert_self _ _ _
  -- The plan is known from its parts; evaluating it would check the key on the curve once more.
  have saves : ∃ said, (Plan.issue (contextUnder "running-credit") (some (.ok issuerFile.encode))
      (some (.ok (issuerState l).encode)) "L1" amount ["NHUPmL1Z_PyUbaRaqr6TO-FUpLU="]).ending =
        (contextUnder "running-credit").saveState (issuerState next) said :=
    Plan.ending_issue (loadKey_issuerFile _) keys_issuerFile whole addresses
      (keysOnCurve_issuerState l) reached room holder ⟨by decide, by decide⟩ built applied
  refine WalletCall.state_perform_of_saveState returns_working.toReads task
    (usual_contextUnder "running-credit" (by decide)) ?_
  rw [prepared.key, prepared.state]
  exact saves

def registeredTree : FileTree := savedIn (.empty .strictUtxo) issuerTree

def issuedTree : FileTree := savedIn afterHundred registeredTree

def issuedAgainTree : FileTree := savedIn afterFifty issuedTree

/-- No save of the run is refused. -/
theorem done_trees :
    (FileTree.disk.replace (stateFileOf ".") (issuerState (.empty .strictUtxo)).encode
        issuerTree).1 = .ok () ∧
      (FileTree.disk.replace (stateFileOf ".") (issuerState afterHundred).encode
        registeredTree).1 = .ok () ∧
      (FileTree.disk.replace (stateFileOf ".") (issuerState afterFifty).encode
        issuedTree).1 = .ok () := by decide +kernel

theorem prepared_trees :
    Prepared registeredTree (some (.ok (issuerState (.empty .strictUtxo)).encode)) ∧
      Prepared issuedTree (some (.ok (issuerState afterHundred).encode)) := by
  obtain ⟨done, again, _⟩ := done_trees
  have registered := prepared_savedIn prepared_issuerTree done (by decide +kernel)
    (by decide +kernel)
  exact ⟨registered, prepared_savedIn registered again (by decide +kernel) (by decide +kernel)⟩

theorem perform_ownRegistration :
    ownRegistration.task? FileTree.disk issuerTree =
        some (.registerOrganizer "L1" none, contextUnder "strict-utxo") ∧
      (ownRegistration.perform FileTree.disk issuerTree).2 = registeredTree := by
  have parsed : Invocation.ofArguments ownRegistration.arguments =
      .ok ⟨some ".", none, false, .registerOrganizer "L1" none⟩ := by decide +kernel
  have task : ownRegistration.task? FileTree.disk issuerTree =
      some (.registerOrganizer "L1" none, contextUnder "strict-utxo") :=
    WalletCall.task?_of_absent returns_working.toReads parsed prepared_issuerTree.plain
      prepared_issuerTree.absent
  refine ⟨task, ?_⟩
  have named : (contextUnder "strict-utxo").organizer (some (.ok issuerFile.encode)) none =
      .ok payerKey := by
    rw [Context.organizer, loadKey_issuerFile]
    rfl
  have mode : (contextUnder "strict-utxo").settings.accounting = .strictUtxo := by decide +kernel
  have loaded : (contextUnder "strict-utxo").loadState none =
      .ok (.empty .strictUtxo "2024-01-01T00:00:00Z") := by
    rw [Context.loadState, mode]
    rfl
  have saves := Plan.ending_registerOrganizer "L1" named loaded
  refine WalletCall.state_perform_of_saveState returns_working.toReads task
    (usual_contextUnder "strict-utxo" (by decide)) ?_
  rw [prepared_issuerTree.key, prepared_issuerTree.state]
  exact saves

/-- The mode stays the strict one, and the second issuance comes after the first in the log. -/
theorem WalletCall.soundAfter_issuances :
    let before := [ownRegistration, ownIssuance "100"]
    let calls := before ++ [ownIssuance "50"]
    (FileTree.disk.look issuerTree (stateFileOf ".") = none ∧
        KeepTo FileTree.disk "." issuerTree calls) ∧
      SoundAfter FileTree.disk "." issuerTree calls ∧
      firstMode? FileTree.disk "." issuerTree calls = some .strictUtxo ∧
      ∃ l later, RestoresTo FileTree.disk "." (after FileTree.disk issuerTree before) l ∧
        RestoresTo FileTree.disk "." (after FileTree.disk issuerTree calls) later ∧
        l.log "L1" = [Service.grant] ∧ later.log "L1" = [Service.grant, fifty] := by
  intro before calls
  obtain ⟨_, done, doneAgain⟩ := done_trees
  obtain ⟨prepared, preparedAgain⟩ := prepared_trees
  obtain ⟨registers, registered⟩ := perform_ownRegistration
  obtain ⟨issues, issued⟩ : _ ∧ _ = issuedTree :=
    perform_ownIssuance "100" prepared (.empty .strictUtxo) (by decide +kernel) (by decide +kernel)
      buildIssuance_hundred issued_hundred.1
  obtain ⟨reissues, issuedAgain⟩ : _ ∧ _ = issuedAgainTree :=
    perform_ownIssuance "50" preparedAgain reached_afterHundred (by decide +kernel)
      (by decide +kernel) buildIssuance_fifty issued_fifty.1
  have run : after FileTree.disk issuerTree before = issuedTree := by
    rw [after_cons registered, after_cons issued]
    rfl
  have runAgain : after FileTree.disk issuerTree calls = issuedAgainTree := by
    rw [after_append, run, after_cons issuedAgain]
    rfl
  have usual := usual_contextUnder "running-credit" (by decide)
  have kept : KeepTo FileTree.disk "." issuerTree calls :=
    .cons registers (usual_contextUnder "strict-utxo" (by decide)) registered <|
      .cons issues usual issued <| .cons reissues usual issuedAgain trivial
  have new := prepared_issuerTree.state
  have mode : firstMode? FileTree.disk "." issuerTree calls =
      some (contextUnder "strict-utxo").settings.accounting :=
    firstMode?_of_look registers registered prepared.state
  refine ⟨⟨new, kept⟩, WalletCall.soundAfter returns_working new kept,
    mode.trans (by decide +kernel), afterHundred, afterFifty, ?_, ?_, issued_hundred.2.log, ?_⟩
  · rw [run]
    exact restoresTo_savedIn done reached_afterHundred
  · rw [runAgain]
    exact restoresTo_savedIn doneAgain (reached_afterHundred.attempt "L1" fifty)
  · rw [issued_fifty.2.log, issued_hundred.2.log]
    rfl

end Issuances

end CoinLedger
