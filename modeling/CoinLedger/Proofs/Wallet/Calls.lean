import CoinLedger.Proofs.Files.Disk
import CoinLedger.Proofs.Files.Path
import CoinLedger.Proofs.Wallet.Plan
import CoinLedger.Wallet.Run

/-!
One use of a wallet, from a command line and an environment to the files that it leaves. Main statement:
a call does what the ending of its command says, and a file that is replaced is as before or as it
should be, whatever came in between.
-/

namespace CoinLedger

/-- One use of the wallet: the words of its command line, the variables, the time, and the key pair for
a new key. -/
structure WalletCall where
  arguments : List String
  environment : Environment
  now : String
  fresh : KeyPair

def keyFileOf (directory : String) : String := Path.join directory "key.json"

def stateFileOf (directory : String) : String := Path.join directory "state.json"

/-- The two files of a wallet directory, and what each is replaced by means of. -/
def walletFiles (directory : String) : List String :=
  ["key.json", "state.json", "key.tmp", "state.tmp"].map (Path.join directory)

/-- The key file and the state file are those of the directory. -/
structure Context.Usual (c : Context) (directory : String) : Prop where
  keyPath : c.keyPath = Path.join directory "key.json"
  statePath : c.statePath = stateFileOf directory

instance (c : Context) (directory : String) : Decidable (c.Usual directory) :=
  decidable_of_iff
    (c.keyPath = Path.join directory "key.json" ∧ c.statePath = stateFileOf directory)
    ⟨fun ⟨keyPath, statePath⟩ => ⟨keyPath, statePath⟩, fun h => ⟨h.keyPath, h.statePath⟩⟩

section Calls

variable {σ : Type} (disk : Disk (StateM σ))

namespace WalletCall

def perform (call : WalletCall) : StateM σ (Except Options.Refusal Completion) :=
  disk.run call.arguments call.environment call.now call.fresh

/-- The command, and what it is carried out with, unless the command line or a variable is refused. -/
def task? (call : WalletCall) (w : σ) : Option (Command × Context) :=
  match Invocation.ofArguments call.arguments with
  | .error _ => none
  | .ok i => (disk.loadEnvironment? call.environment w).1.map fun e =>
    (i.command, i.context e call.now call.fresh)

end WalletCall

end Calls

namespace Disk

variable {σ : Type} {disk : Disk (StateM σ)}

theorem Reads.state_loadEnvironment? (h : disk.Reads) (e : Environment) (w : σ) :
    (disk.loadEnvironment? e w).2 = w := by
  unfold loadEnvironment?
  rw [run_bind, h.isDirectory]
  split
  · rfl
  · rw [run_bind, h.run_find?]
    generalize (disk.look w environmentFile, w).1 = found
    split <;> rfl

/-- A plan does nothing to the disk but to replace the file that it saves, and one that saves a file
fails if that is refused. -/
theorem carryOut_eq (plan : Plan) (w : σ) :
    disk.carryOut plan w =
      match plan.ending with
      | .done => (⟨plan.said, none⟩, w)
      | .failed failure => (⟨plan.said, some failure⟩, w)
      | .save path bytes said =>
        (match (disk.replace path bytes w).1 with
          | .ok () => ⟨plan.said ++ said, none⟩
          | .error fault => ⟨plan.said, some (.writing path fault)⟩,
          (disk.replace path bytes w).2) := by
  unfold carryOut
  cases plan.ending with
  | done => rfl
  | failed failure => rfl
  | save path bytes said =>
    dsimp only
    rw [run_bind]
    cases (disk.replace path bytes w).1 <;> rfl

end Disk

namespace WalletCall

variable {σ : Type} {disk : Disk (StateM σ)} {call : WalletCall} {w : σ}

/-- A call is its command carried out, given what is in the files of its context. -/
theorem perform_of_task? (h : disk.Reads) {command : Command} {c : Context}
    (task : call.task? disk w = some (command, c)) :
    call.perform disk w =
      (.ok (disk.carryOut (command.plan c (disk.look w c.keyPath) (disk.look w c.statePath)) w).1,
        (disk.carryOut (command.plan c (disk.look w c.keyPath) (disk.look w c.statePath)) w).2) := by
  unfold task? at task
  cases parsed : Invocation.ofArguments call.arguments with
  | error refusal =>
    rw [parsed] at task
    exact nomatch task
  | ok i =>
    rw [parsed] at task
    obtain ⟨e, loaded, same⟩ := Option.map_eq_some_iff.1 task
    cases same
    have unchanged := h.state_loadEnvironment? call.environment w
    simp only [perform, Disk.run, parsed, Disk.invoke, Disk.run_bind, loaded, unchanged,
      h.run_find?]
    rfl

/-- The command line was understood, and the command ended without a failure. -/
def Succeeds (disk : Disk (StateM σ)) (w : σ) (call : WalletCall) : Prop :=
  ∃ said, (call.perform disk w).1 = .ok ⟨said, none⟩

instance (disk : Disk (StateM σ)) (w : σ) (call : WalletCall) : Decidable (call.Succeeds disk w) :=
  match h : (call.perform disk w).1 with
  | .ok ⟨said, none⟩ => isTrue ⟨said, h⟩
  | .ok ⟨_, some _⟩ => isFalse fun ⟨_, same⟩ => nomatch h.symm.trans same
  | .error _ => isFalse fun ⟨_, same⟩ => nomatch h.symm.trans same

/-- What a call with an ending does to the disk, and when it succeeds. -/
def Does (disk : Disk (StateM σ)) (w : σ) (call : WalletCall) : Ending → Prop
  | .done => (call.perform disk w).2 = w
  | .failed _ => (call.perform disk w).2 = w ∧ ¬call.Succeeds disk w
  | .save path bytes _ => (call.perform disk w).2 = (disk.replace path bytes w).2 ∧
      (call.Succeeds disk w ↔ (disk.replace path bytes w).1 = .ok ())

theorem does_of_carryOut {plan : Plan}
    (performed : call.perform disk w = (.ok (disk.carryOut plan w).1, (disk.carryOut plan w).2)) :
    call.Does disk w plan.ending := by
  rw [Disk.carryOut_eq] at performed
  cases ending : plan.ending with
  | done =>
    rw [ending] at performed
    exact congrArg Prod.snd performed
  | failed failure =>
    rw [ending] at performed
    refine ⟨congrArg Prod.snd performed, ?_⟩
    rintro ⟨said, same⟩
    rw [performed] at same
    exact nomatch same
  | save path bytes said =>
    rw [ending] at performed
    refine ⟨congrArg Prod.snd performed, ?_⟩
    rw [Succeeds, performed]
    dsimp only
    cases (disk.replace path bytes w).1 with
    | ok => exact iff_of_true ⟨_, rfl⟩ rfl
    | error fault => exact iff_of_false (fun ⟨_, same⟩ => nomatch same) (fun same => nomatch same)

/-- All that a call does: its command ends in one of its ways, given the files of the wallet. -/
theorem does_of_task? (h : disk.Reads) {command : Command} {c : Context} {directory : String}
    (task : call.task? disk w = some (command, c)) (usual : c.Usual directory) :
    ∃ ending, c.Ends (disk.look w (keyFileOf directory)) (disk.look w (stateFileOf directory))
      command ending ∧ call.Does disk w ending := by
  have performed := perform_of_task? h task
  rw [usual.keyPath, usual.statePath] at performed
  exact ⟨_, ends_plan c _ _ command, does_of_carryOut performed⟩

/-- A command that ends in saving the state replaces the state file of the directory. -/
theorem state_perform_of_saveState (h : disk.Reads) {command : Command} {c : Context}
    {directory : String} (task : call.task? disk w = some (command, c)) (usual : c.Usual directory)
    {next : WalletState}
    (saves : ∃ said, (command.plan c (disk.look w (keyFileOf directory))
      (disk.look w (stateFileOf directory))).ending = c.saveState next said) :
    (call.perform disk w).2 = (disk.replace (stateFileOf directory) next.encode w).2 := by
  obtain ⟨said, ending⟩ := saves
  have performed := perform_of_task? h task
  rw [usual.keyPath, usual.statePath] at performed
  have does := does_of_carryOut performed
  unfold keyFileOf at ending
  rw [ending, Context.saveState] at does
  rw [does.1, usual.statePath]

/-- Without a file of variables, a call is what its command line and its own variables say. -/
theorem task?_of_absent (h : disk.Reads) {i : Invocation}
    (parsed : Invocation.ofArguments call.arguments = .ok i)
    (plain : (disk.isDirectory Disk.environmentFile w).1 = false)
    (absent : disk.look w Disk.environmentFile = none) :
    call.task? disk w = some (i.command, i.context call.environment call.now call.fresh) := by
  have own : (disk.loadEnvironment? call.environment w).1 = some call.environment := by
    unfold Disk.loadEnvironment?
    rw [Disk.run_bind, plain, h.isDirectory, if_neg Bool.false_ne_true, Disk.run_bind, h.run_find?,
      absent]
    rfl
  rw [task?, parsed]
  simp only [own, Option.map_some]

theorem state_perform_of_task? (h : disk.Reads) (task : call.task? disk w = none) :
    (call.perform disk w).2 = w := by
  unfold task? at task
  cases parsed : Invocation.ofArguments call.arguments with
  | error refusal =>
    simp only [perform, Disk.run, parsed]
    rfl
  | ok i =>
    rw [parsed] at task
    have refused := Option.map_eq_none_iff.1 task
    simp only [perform, Disk.run, parsed, Disk.invoke, Disk.run_bind, refused]
    exact h.state_loadEnvironment? call.environment w

end WalletCall

section WalletFiles

variable (directory : String)

theorem withExtension_keyFile :
    Path.withExtension (keyFileOf directory) Disk.draftExtension =
      Path.join directory "key.tmp" :=
  (Path.withExtension_join ⟨by decide, _, _, rfl, by decide⟩ (by decide) directory _).trans
    (congrArg (Path.join directory) (by decide))

theorem withExtension_stateFile :
    Path.withExtension (stateFileOf directory) Disk.draftExtension =
      Path.join directory "state.tmp" :=
  (Path.withExtension_join ⟨by decide, _, _, rfl, by decide⟩ (by decide) directory _).trans
    (congrArg (Path.join directory) (by decide))

theorem join_mem_walletFiles {name : String}
    (h : name ∈ ["key.json", "state.json", "key.tmp", "state.tmp"]) :
    Path.join directory name ∈ walletFiles directory := List.mem_map_of_mem h

theorem join_ne_join {name other : String} (h : name ≠ other) :
    Path.join directory name ≠ Path.join directory other := fun same => h (Path.join_injective same)

/-- The files that a wallet keeps; its drafts come and go. -/
inductive KeptIn : String → Prop
  | key : KeptIn (keyFileOf directory)
  | state : KeptIn (stateFileOf directory)

end WalletFiles

namespace KeptIn

variable {directory path other : String}

theorem mem (h : KeptIn directory path) : path ∈ walletFiles directory := by
  cases h with
  | key => exact join_mem_walletFiles directory (by decide)
  | state => exact join_mem_walletFiles directory (by decide)

theorem draft_mem (h : KeptIn directory path) :
    Path.withExtension path Disk.draftExtension ∈ walletFiles directory := by
  cases h with
  | key =>
    rw [withExtension_keyFile]
    exact join_mem_walletFiles directory (by decide)
  | state =>
    rw [withExtension_stateFile]
    exact join_mem_walletFiles directory (by decide)

theorem ne_draft (h : KeptIn directory path) (k : KeptIn directory other) :
    path ≠ Path.withExtension other Disk.draftExtension := by
  cases k with
  | key =>
    rw [withExtension_keyFile]
    cases h <;> exact join_ne_join directory (by decide)
  | state =>
    rw [withExtension_stateFile]
    cases h <;> exact join_ne_join directory (by decide)

end KeptIn

section Replacing

variable {σ : Type} {disk : Disk (StateM σ)} {directory : String}
  (h : disk.Returns (walletFiles directory))

include h

namespace WalletCall

theorem look_replace_other {path other : String} (kept : KeptIn directory path)
    (also : KeptIn directory other) (ne : other ≠ path) (bytes : List UInt8) (w : σ) :
    disk.look (disk.replace path bytes w).2 other = disk.look w other :=
  h.look_replace_other kept.mem kept.draft_mem also.mem ne (also.ne_draft kept) bytes w

theorem look_replace_of_error {path : String} (kept : KeptIn directory path) {bytes : List UInt8}
    {w : σ} {fault : FileFault} (refused : (disk.replace path bytes w).1 = .error fault) :
    disk.look (disk.replace path bytes w).2 path = disk.look w path :=
  h.look_replace_of_error kept.mem kept.draft_mem (kept.ne_draft kept) refused

theorem look_replace_of_ok {path : String} (kept : KeptIn directory path) {bytes : List UInt8}
    {w : σ} (done : (disk.replace path bytes w).1 = .ok ()) :
    disk.look (disk.replace path bytes w).2 path = some (.ok bytes) :=
  h.look_replace_of_ok kept.mem kept.draft_mem done

/-- A file that a wallet keeps is as it was or as it should be, whatever came in between. -/
theorem look_replace {path : String} (kept : KeptIn directory path) (bytes : List UInt8) (w : σ) :
    disk.look (disk.replace path bytes w).2 path = disk.look w path ∨
      disk.look (disk.replace path bytes w).2 path = some (.ok bytes) := by
  cases result : (disk.replace path bytes w).1 with
  | ok => exact .inr (look_replace_of_ok h kept result)
  | error fault => exact .inl (look_replace_of_error h kept result)

end WalletCall

end Replacing

end CoinLedger
