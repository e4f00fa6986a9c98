import CoinLedger.Proofs.Files.Tree
import CoinLedger.Proofs.Wallet.Calls
import CoinLedger.Proofs.Wallet.Stepwise

/-!
What one use of a wallet changes in the two files that it keeps, whatever is in them. Main statement:
carried out step by step, with nothing taken back, a call that fails changes neither file; questions
change neither, a command writes to its own file only, and a new organizer is all that registering one
changes.
-/

namespace CoinLedger

/-- The state with the organizer of one organization replaced. The snapshot is the same, and so is the
ledger of every organization that is restored from it, or the refusal to restore them. -/
structure WalletState.Reassigns (s later : WalletState) (organization : String) (key : PublicKey) :
    Prop where
  snapshot : later.snapshot = s.snapshot
  organizer : later.organizers.find? organization = some key
  others : ∀ other, other ≠ organization → later.organizers.find? other = s.organizers.find? other

section Statement

variable {σ : Type} (disk : Disk (StateM σ)) (directory : String) (w : σ)

/-- The files that the wallet keeps are the same, byte for byte, or are missing as before. -/
def SameFiles (after : σ) : Prop :=
  ∀ path, KeptIn directory path → disk.look after path = disk.look w path

/-- What a call may and may not do to the two files. The first part makes the others hold of the steps
of a command as they are taken: what was done before one fails is done. -/
structure WalletCall.KeepsFiles (call : WalletCall) : Prop where
  stepwise : call.stepwise disk w = call.perform disk w
  failed : ¬call.Succeeds disk w → SameFiles disk directory w (call.perform disk w).2
  asked : ∀ command c, call.task? disk w = some (command, c) → command.asks = true →
    SameFiles disk directory w (call.perform disk w).2
  keygen : ∀ secret force c, call.task? disk w = some (.keygen secret force, c) →
    disk.look (call.perform disk w).2 (stateFileOf directory) = disk.look w (stateFileOf directory)
  others : ∀ command c, call.task? disk w = some (command, c) →
    (∀ secret force, command ≠ .keygen secret force) →
      disk.look (call.perform disk w).2 (keyFileOf directory) = disk.look w (keyFileOf directory)
  registered : ∀ organization organizer c,
    call.task? disk w = some (.registerOrganizer organization organizer, c) → call.Succeeds disk w →
      ∃ s key later, c.loadState (disk.look w (stateFileOf directory)) = .ok s ∧
        c.organizer (disk.look w (keyFileOf directory)) organizer = .ok key ∧
        c.loadState (disk.look (call.perform disk w).2 (stateFileOf directory)) = .ok later ∧
        s.Reassigns later organization key

end Statement

/-- The file that is replaced at the end, if one is. -/
def Ending.saves? : Ending → Option String
  | .save path _ _ => some path
  | _ => none

/-- The file that a command is for, if it is one that changes a file. -/
def Context.target? (c : Context) : Command → Option String
  | .keygen .. => some c.keyPath
  | .registerOrganizer .. | .issue .. | .send .. => some c.statePath
  | .address | .balance .. | .history .. | .verify .. => none

namespace Context

variable {c : Context} {keyFile stateFile : Finding} {command : Command} {ending : Ending}

theorem Ends.saves? (h : c.Ends keyFile stateFile command ending) :
    ending.saves? = none ∨ ending.saves? = c.target? command := by
  cases h with
  | failed failure => exact .inl rfl
  | answered asks => exact .inl rfl
  | present secret force => exact .inl rfl
  | made secret force keys => exact .inr rfl
  | registered named loaded said => exact .inr rfl
  | issued organization amount beneficiaries loaded advances said => exact .inr rfl
  | sent organization recipient amount loaded advances said => exact .inr rfl

theorem Ends.target? {path : String} {bytes : List UInt8} {said : List String}
    (h : c.Ends keyFile stateFile command (.save path bytes said)) :
    c.target? command = some path := by
  rcases h.saves? with none | same
  · exact nomatch none
  · exact same.symm

theorem Ends.registerOrganizer {organization : String} {organizer : Option String}
    (h : c.Ends keyFile stateFile (.registerOrganizer organization organizer) ending) :
    (∃ failure, ending = .failed failure) ∨
      ∃ key s said, c.organizer keyFile organizer = .ok key ∧ c.loadState stateFile = .ok s ∧
        ending = c.saveState { s with organizers := s.organizers.insert organization key } said := by
  cases h with
  | failed failure => exact .inl ⟨failure, rfl⟩
  | answered asks => exact nomatch asks
  | registered named loaded said => exact .inr ⟨_, _, said, named, loaded, rfl⟩

theorem target?_eq_none (asks : command.asks = true) : c.target? command = none := by
  cases command with
  | address | balance | history | verify => rfl
  | keygen | registerOrganizer | issue | send => exact nomatch asks

theorem target?_eq_statePath {path : String} (target : c.target? command = some path)
    (other : ∀ secret force, command ≠ .keygen secret force) : path = c.statePath := by
  cases command with
  | keygen secret force => exact absurd rfl (other secret force)
  | registerOrganizer | issue | send => exact (Option.some.inj target).symm
  | address | balance | history | verify => exact nomatch target

theorem Usual.kept {directory path : String} (usual : c.Usual directory)
    (target : c.target? command = some path) : KeptIn directory path := by
  cases command with
  | keygen =>
    cases target
    rw [usual.keyPath]
    exact .key
  | registerOrganizer | issue | send =>
    cases target
    rw [usual.statePath]
    exact .state
  | address | balance | history | verify => exact nomatch target

theorem keysOnCurve_of_loadState {s : WalletState} (h : c.loadState stateFile = .ok s) :
    KeysOnCurve s.organizers ∧ s.snapshot.KeysOnCurve := by
  unfold loadState at h
  split at h
  · cases h
    obtain ⟨attempts, reached⟩ := Ledger.Reached.empty c.settings.accounting
    exact ⟨.empty, Ledger.keysOnCurve_capture reached c.now⟩
  · exact nomatch h
  · split at h
    · next decoded =>
      cases h
      exact WalletState.keysOnCurve_of_decode? decoded
    · exact nomatch h

end Context

theorem WalletState.reassigns_insert (s : WalletState) (organization : String) (key : PublicKey) :
    s.Reassigns { s with organizers := s.organizers.insert organization key } organization key where
  snapshot := rfl
  organizer := s.organizers.find?_insert_self organization key
  others other ne := by rw [Table.find?_insert_text, if_neg ne]

section Effect

variable {σ : Type} {disk : Disk (StateM σ)} {directory : String} {w : σ} {call : WalletCall}
  {command : Command} {c : Context}

theorem SameFiles.of_eq {after : σ} (h : after = w) : SameFiles disk directory w after :=
  fun _ _ => by rw [h]

namespace WalletCall

variable (h : disk.Returns (walletFiles directory))

include h

/-- A refusal to replace a file changes neither file. -/
theorem sameFiles_replace {path : String} (kept : KeptIn directory path) {bytes : List UInt8}
    {fault : FileFault} (refused : (disk.replace path bytes w).1 = .error fault) :
    SameFiles disk directory w (disk.replace path bytes w).2 := by
  intro other also
  by_cases same : other = path
  · rw [same]
    exact look_replace_of_error h kept refused
  · exact look_replace_other h kept also same bytes w

/-- A file that the command is not for is as it was. -/
theorem look_perform_other (task : call.task? disk w = some (command, c))
    (usual : c.Usual directory) {other : String} (kept : KeptIn directory other)
    (ne : ∀ path, c.target? command = some path → other ≠ path) :
    disk.look (call.perform disk w).2 other = disk.look w other := by
  obtain ⟨ending, ends, does⟩ := does_of_task? h.toReads task usual
  cases ending with
  | done => exact congrArg (disk.look · other) does
  | failed failure => exact congrArg (disk.look · other) does.1
  | save path bytes said =>
    rw [does.1]
    exact look_replace_other h (usual.kept ends.target?) kept (ne path ends.target?) bytes w

/-- Nothing is saved before all else has come out well, and then a refusal changes nothing either. -/
theorem sameFiles_of_not_succeeds (usual : ∀ task ∈ call.task? disk w, task.2.Usual directory)
    (fails : ¬call.Succeeds disk w) : SameFiles disk directory w (call.perform disk w).2 := by
  cases task : call.task? disk w with
  | none => exact .of_eq (state_perform_of_task? h.toReads task)
  | some task' =>
    obtain ⟨ending, ends, does⟩ := does_of_task? h.toReads task (usual _ task)
    cases ending with
    | done => exact .of_eq does
    | failed failure => exact .of_eq does.1
    | save path bytes said =>
      rw [does.2] at fails
      rw [does.1]
      cases result : (disk.replace path bytes w).1 with
      | ok => exact absurd result fails
      | error fault => exact sameFiles_replace h ((usual _ task).kept ends.target?) result

/-- The state that was saved is read again, since what was read of the state before, be it tampered
with, can be written and read. -/
theorem reassigns_of_succeeds {organization : String} {organizer : Option String}
    (task : call.task? disk w = some (.registerOrganizer organization organizer, c))
    (usual : c.Usual directory) (succeeds : call.Succeeds disk w) :
    ∃ s key later, c.loadState (disk.look w (stateFileOf directory)) = .ok s ∧
      c.organizer (disk.look w (keyFileOf directory)) organizer = .ok key ∧
      c.loadState (disk.look (call.perform disk w).2 (stateFileOf directory)) = .ok later ∧
      s.Reassigns later organization key := by
  obtain ⟨ending, ends, does⟩ := does_of_task? h.toReads task usual
  rcases ends.registerOrganizer with ⟨failure, rfl⟩ | ⟨key, s, said, named, loaded, rfl⟩
  · exact absurd succeeds does.2
  · obtain ⟨after, replaced⟩ := does
    have written := look_replace_of_ok h (usual.kept ends.target?) (replaced.1 succeeds)
    rw [← after, usual.statePath] at written
    obtain ⟨organizers, keyed⟩ := Context.keysOnCurve_of_loadState loaded
    refine ⟨s, key, _, loaded, named, ?_, s.reassigns_insert organization key⟩
    rw [written]
    exact Context.loadState_encode
      (organizers.insert organization (Context.isPoint_of_organizer named)) keyed

/-- A call keeps to its own file and leaves both if it fails, whatever is in the files, in the variables
and on the command line, and on any disk that returns what was written. -/
theorem keepsFiles (usual : ∀ task ∈ call.task? disk w, task.2.Usual directory) :
    KeepsFiles disk directory w call where
  stepwise := stepwise_eq_perform h.toReads
  failed := sameFiles_of_not_succeeds h usual
  asked := by
    intro command c task asks path kept
    refine look_perform_other h task (usual _ task) kept fun target some => ?_
    rw [Context.target?_eq_none asks] at some
    exact nomatch some
  keygen := by
    intro secret force c task
    refine look_perform_other h task (usual _ task) .state fun path target => ?_
    rw [← Option.some.inj target, (usual _ task).keyPath]
    exact join_ne_join directory (by decide)
  others := by
    intro command c task other
    refine look_perform_other h task (usual _ task) .key fun path target => ?_
    rw [Context.target?_eq_statePath target other, (usual _ task).statePath]
    exact join_ne_join directory (by decide)
  registered _ _ _ task succeeds := reassigns_of_succeeds h task (usual _ task) succeeds

end WalletCall

/-- The identity, as the organizer of an organization, registered under a mode. -/
def registration (organization mode : String) : WalletCall where
  arguments := ["--dir", ".", "register-organizer", "--lao", organization, "--organizer",
    "AQAAAAAAAAAAAAAAAAAAAAAAAAAAAAAAAAAAAAAAAAA="]
  environment := .ofBindings [(Settings.accountingVariable, mode)]
  now := "2024-01-01T00:00:00Z"
  fresh := ⟨List.replicate 32 32, rfl⟩

/-- A state that no wallet saves: its log holds a transaction without inputs and outputs. -/
def forgedState : WalletState where
  organizers := .empty
  snapshot :=
    { createdAt := ""
      accounting := .strictUtxo
      organizations := .ofList
        [("L1", [⟨Message.unpaddedByte, ⟨protocolVersion, [], [], 0, by decide⟩⟩])] }

/-- An organizer is registered although the ledger in the file cannot be restored. -/
theorem WalletCall.keepsFiles_forged :
    let w := (FileTree.disk.put (stateFileOf ".") forgedState.encode (FileTree.ofWorking ["home"])).2
    let call := registration "L2" "running-credit"
    ((∀ task ∈ call.task? FileTree.disk w, task.2.Usual ".") ∧ call.Succeeds FileTree.disk w ∧
        forgedState.snapshot.restore.isOk = false) ∧
      KeepsFiles FileTree.disk "." w call := by
  intro w call
  have names : ∀ name ∈ ["key.json", "state.json", "key.tmp", "state.tmp"],
      FileTree.IsLocal name := by decide +kernel
  have usual : ∀ task ∈ call.task? FileTree.disk w, task.2.Usual "." := by decide +kernel
  have succeeds : call.Succeeds FileTree.disk w := by decide +kernel
  have refused : forgedState.snapshot.restore.isOk = false := by decide +kernel
  exact ⟨⟨usual, succeeds, refused⟩, keepsFiles (FileTree.returns names) usual⟩

end Effect

end CoinLedger
