import CoinLedger.Proofs.Service.Minting
import CoinLedger.Proofs.Wallet.State
import CoinLedger.Wallet.Plan

/-!
What a command does to the state file. Main statements: a command ends in one of few ways, whatever is
asked, and so saves no file but the two of its wallet; a state file that it saves holds a ledger that
grew out of the one before; and a question to verify all organizations finds every index in order.
-/

namespace CoinLedger

/-- What every step of a loop keeps, the loop keeps. -/
theorem foldlM_induction {ε α β : Type} {f : β → α → Except ε β} {P : β → Prop}
    (step : ∀ b a next, P b → f b a = .ok next → P next) {b last : β} (start : P b) {l : List α}
    (run : l.foldlM f b = .ok last) : P last := by
  induction l generalizing b with
  | nil =>
    cases run
    exact start
  | cons a rest ih =>
    rw [List.foldlM_cons] at run
    obtain ⟨mid, first, later⟩ := ok_of_bind run
    exact ih (step b a mid start first) later

namespace Ledger

/-- The later ledger is kept in the same mode, and every log has only had transactions added. -/
structure Grows (l later : Ledger) : Prop where
  mode : later.mode = l.mode
  log : ∀ organization, l.log organization <+: later.log organization
  reached : l.Reached → later.Reached

theorem Grows.refl (l : Ledger) : l.Grows l := ⟨rfl, fun _ => List.prefix_refl _, id⟩

theorem Grows.trans {l mid later : Ledger} (h : l.Grows mid) (k : mid.Grows later) :
    l.Grows later :=
  ⟨k.mode.trans h.mode, fun organization => (h.log organization).trans (k.log organization),
    k.reached ∘ h.reached⟩

theorem grows_of_apply {l next : Ledger} {organization : String} {tx : Transaction}
    {outcome : Outcome} (h : l.apply organization tx = .ok (next, outcome)) : l.Grows next := by
  have tried := attempt_of_apply h
  refine ⟨?_, fun other => ?_, fun reached => ?_⟩
  · rw [← tried, mode_attempt]
  · rcases log_apply h other with same | ⟨_, more⟩
    · exact same ▸ List.prefix_refl _
    · exact more ▸ List.prefix_append _ _
  · rw [← tried]
    exact reached.attempt organization tx

theorem Reached.restore {l : Ledger} (h : l.Reached) (now : String) :
    (Snapshot.capture now l).restore = .ok l := by
  obtain ⟨attempts, reached⟩ := h
  exact Snapshot.restore_capture now fun _ member => restorable_of_mem reached member

theorem Reached.replayable {l : Ledger} (h : l.Reached) (organization : String) :
    (l.book organization).Replayable := by
  obtain ⟨attempts, reached⟩ := h
  rw [← reached, book_after, book_empty]
  exact Book.replayable_after l.mode _

end Ledger

namespace Service

variable {s next : Service}

/-- The organizers have not changed, and the ledger has only grown. -/
structure Advances (s next : Service) : Prop where
  registry : next.registry = s.registry
  ledger : s.ledger.Grows next.ledger

theorem Keeps.advances (h : s.Keeps next) : s.Advances next :=
  ⟨h.registry, h.ledger ▸ .refl s.ledger⟩

theorem Advances.trans {mid : Service} (h : s.Advances mid) (k : mid.Advances next) :
    s.Advances next := ⟨k.registry.trans h.registry, h.ledger.trans k.ledger⟩

theorem advances_of_deliver {d : Delivery} {outcome : Outcome}
    (h : s.deliver d = .ok (next, outcome)) : s.Advances next := by
  obtain ⟨registry, delivered⟩ := deliver_eq_ok h
  obtain ⟨organization, tx, _, _, applied⟩ := Ledger.deliver_cases delivered
  exact ⟨registry, Ledger.grows_of_apply applied⟩

/-- All that is queued comes back as deliveries, one after the other. -/
theorem advances_of_echo {sender : PublicKey} {outcomes : List Outcome}
    (h : s.echo sender = .ok (next, outcomes)) : s.Advances next := by
  have emptied : s.Keeps { s with outbox := s.outbox.drained } := ⟨rfl, rfl⟩
  refine foldlM_induction (P := fun r => s.Advances r.1) ?_ emptied.advances h
  rintro ⟨mid, before⟩ m ⟨later, all⟩ advances answer
  cases delivered : mid.deliver ⟨m.channel.text, sender, m.message.encode⟩ with
  | error e =>
    simp only [delivered] at answer
    exact nomatch answer
  | ok result =>
    simp only [delivered] at answer
    cases answer
    exact advances.trans (advances_of_deliver delivered)

end Service

namespace Plan

/-- What holds of failures, and of how a plan ends if it comes about, holds of how its step ends. -/
theorem ending_ofExcept {P : Ending → Prop} (failed : ∀ failure, P (.failed failure))
    {x : Except Failure Plan} (h : ∀ plan, x = .ok plan → P plan.ending) : P (ofExcept x).ending := by
  cases x with
  | error failure => exact failed failure
  | ok plan => exact h plan rfl

theorem ending_announce {P : Ending → Prop} (failed : ∀ failure, P (.failed failure)) {line : String}
    {x : Except Failure Ending} (h : ∀ ending, x = .ok ending → P ending) :
    P (announce line x).ending := by
  cases x with
  | error failure => exact failed failure
  | ok ending => exact h ending rfl

end Plan

theorem Failure.of_ofCash {α : Type} {x : Except CashError α} {a : α} (h : ofCash x = .ok a) :
    x = .ok a := by
  cases x with
  | error cause => exact nomatch h
  | ok b =>
    cases h
    rfl

/-- Questions, which are answered and change nothing. -/
def Command.asks : Command → Bool
  | .address | .balance .. | .history .. | .verify .. => true
  | .keygen .. | .registerOrganizer .. | .issue .. | .send .. => false

/-- How a command may end, given what is in its two files: everything that its many steps come to. -/
inductive Context.Ends (c : Context) (keyFile stateFile : Finding) : Command → Ending → Prop
  | failed {command : Command} (failure : Failure) : Ends c keyFile stateFile command (.failed failure)
  | answered {command : Command} (asks : command.asks = true) : Ends c keyFile stateFile command .done
  | present (secret : Option String) (force : Bool) :
    Ends c keyFile stateFile (.keygen secret force) .done
  | made (secret : Option String) (force : Bool) (keys : KeyPair) :
    Ends c keyFile stateFile (.keygen secret force) (c.saveKeys keys)
  | registered {organization : String} {organizer : Option String} {key : PublicKey} {s : WalletState}
    (named : c.organizer keyFile organizer = .ok key) (loaded : c.loadState stateFile = .ok s)
    (said : List String) :
    Ends c keyFile stateFile (.registerOrganizer organization organizer)
      (c.saveState { s with organizers := s.organizers.insert organization key } said)
  | issued (organization amount : String) (beneficiaries : List String) {s next : Service}
    (loaded : c.loadService stateFile = .ok s) (advances : s.Advances next) (said : List String) :
    Ends c keyFile stateFile (.issue organization amount beneficiaries) (c.saveService next said)
  | sent (organization recipient amount : String) {s next : Service}
    (loaded : c.loadService stateFile = .ok s) (advances : s.Advances next) (said : List String) :
    Ends c keyFile stateFile (.send organization recipient amount) (c.saveService next said)

section Commands

variable (c : Context) (keyFile stateFile : Finding) (organization : String)

theorem ends_keygen (secret : Option String) (force : Bool) :
    c.Ends keyFile stateFile (.keygen secret force) (Plan.keygen c keyFile secret force).ending := by
  unfold Plan.keygen
  split
  · exact .present secret force
  · split
    · exact .made _ force c.fresh
    · refine Plan.ending_announce .failed fun ending built => ?_
      split at built
      · next keys _ =>
        cases built
        exact .made _ force keys
      · exact nomatch built

theorem ends_address : c.Ends keyFile stateFile .address (Plan.address c keyFile).ending := by
  refine Plan.ending_ofExcept .failed fun plan built => ?_
  obtain ⟨k, _, built⟩ := ok_of_bind built
  cases built
  exact .answered rfl

theorem ends_registerOrganizer (organizer : Option String) :
    c.Ends keyFile stateFile (.registerOrganizer organization organizer)
      (Plan.registerOrganizer c keyFile stateFile organization organizer).ending := by
  refine Plan.ending_ofExcept .failed fun plan built => ?_
  obtain ⟨key, named, built⟩ := ok_of_bind built
  obtain ⟨s, loaded, built⟩ := ok_of_bind built
  cases built
  exact .registered named loaded _

theorem ends_issue (amount : String) (beneficiaries : List String) :
    c.Ends keyFile stateFile (.issue organization amount beneficiaries)
      (Plan.issue c keyFile stateFile organization amount beneficiaries).ending := by
  refine Plan.ending_ofExcept .failed fun plan built => ?_
  obtain ⟨k, _, built⟩ := ok_of_bind built
  obtain ⟨keys, _, built⟩ := ok_of_bind built
  obtain ⟨value, _, built⟩ := ok_of_bind built
  obtain ⟨addresses, _, built⟩ := ok_of_bind built
  obtain ⟨s, loaded, built⟩ := ok_of_bind built
  split at built
  · exact nomatch built
  · cases built
    refine Plan.ending_announce .failed fun ending done => ?_
    obtain ⟨⟨queued, tx⟩, issued, done⟩ := ok_of_bind (Failure.of_ofCash done)
    obtain ⟨⟨next, outcomes⟩, echoed, done⟩ := ok_of_bind done
    cases done
    have advances := (Service.keeps_built issued).advances.trans (Service.advances_of_echo echoed)
    exact .issued _ _ _ loaded advances _

theorem ends_send (recipient amount : String) :
    c.Ends keyFile stateFile (.send organization recipient amount)
      (Plan.send c keyFile stateFile organization recipient amount).ending := by
  refine Plan.ending_ofExcept .failed fun plan built => ?_
  obtain ⟨k, _, built⟩ := ok_of_bind built
  obtain ⟨keys, _, built⟩ := ok_of_bind built
  obtain ⟨owner, _, built⟩ := ok_of_bind built
  obtain ⟨value, _, built⟩ := ok_of_bind built
  obtain ⟨s, loaded, built⟩ := ok_of_bind built
  cases built
  refine Plan.ending_announce .failed fun ending done => ?_
  obtain ⟨⟨queued, tx⟩, sent, done⟩ := ok_of_bind (Failure.of_ofCash done)
  obtain ⟨⟨next, outcomes⟩, echoed, done⟩ := ok_of_bind done
  cases done
  have advances := (Service.keeps_built sent).advances.trans (Service.advances_of_echo echoed)
  exact .sent _ _ _ loaded advances _

theorem ends_balance (owner : Option String) :
    c.Ends keyFile stateFile (.balance organization owner)
      (Plan.balance c keyFile stateFile organization owner).ending := by
  refine Plan.ending_ofExcept .failed fun plan built => ?_
  obtain ⟨address, _, built⟩ := ok_of_bind built
  obtain ⟨s, _, built⟩ := ok_of_bind built
  cases built
  exact .answered rfl

theorem ends_history (owner : Option String) :
    c.Ends keyFile stateFile (.history organization owner)
      (Plan.history c keyFile stateFile organization owner).ending := by
  refine Plan.ending_ofExcept .failed fun plan built => ?_
  obtain ⟨address, _, built⟩ := ok_of_bind built
  obtain ⟨s, _, built⟩ := ok_of_bind built
  split at built <;> (cases built; exact .answered rfl)

theorem ends_verify (organization : Option String) :
    c.Ends keyFile stateFile (.verify organization) (Plan.verify c stateFile organization).ending := by
  refine Plan.ending_ofExcept .failed fun plan built => ?_
  obtain ⟨s, _, built⟩ := ok_of_bind built
  cases organization
  all_goals
    dsimp only at built
    split at built
    · cases built
      exact .answered rfl
    · cases built
      exact .failed _
    · cases built
      exact .failed _

/-- No command ends in another way. -/
theorem ends_plan (command : Command) :
    c.Ends keyFile stateFile command (command.plan c keyFile stateFile).ending := by
  cases command with
  | keygen secret force => exact ends_keygen c keyFile stateFile secret force
  | address => exact ends_address c keyFile stateFile
  | registerOrganizer organization organizer =>
    exact ends_registerOrganizer c keyFile stateFile organization organizer
  | issue organization amount beneficiaries =>
    exact ends_issue c keyFile stateFile organization amount beneficiaries
  | send organization recipient amount =>
    exact ends_send c keyFile stateFile organization recipient amount
  | balance organization owner => exact ends_balance c keyFile stateFile organization owner
  | history organization owner => exact ends_history c keyFile stateFile organization owner
  | verify organization => exact ends_verify c keyFile stateFile organization

end Commands

/-- What is found is a state file with the ledger in it, or nothing, and the ledger is the empty one in
the mode of the settings. -/
def Context.Opens (c : Context) (stateFile : Finding) (l : Ledger) : Prop :=
  (stateFile = none ∧ l = .empty c.settings.accounting) ∨
    ∃ bytes, stateFile = some (.ok bytes) ∧ WalletState.Holds bytes l

namespace Context

variable {c : Context} {stateFile : Finding} {l : Ledger}

theorem Opens.reached (h : c.Opens stateFile l) : l.Reached := by
  rcases h with ⟨_, rfl⟩ | ⟨_, _, _, _, _, reached, _⟩
  · exact .empty _
  · exact reached

theorem loadState_encode {s : WalletState} (organizers : KeysOnCurve s.organizers)
    (keyed : s.snapshot.KeysOnCurve) : c.loadState (some (.ok s.encode)) = .ok s := by
  simp only [loadState, WalletState.decode?_encode organizers keyed]

theorem Opens.loadState (h : c.Opens stateFile l) :
    ∃ s, c.loadState stateFile = .ok s ∧ KeysOnCurve s.organizers ∧
      ∃ now, s.snapshot = .capture now l := by
  rcases h with ⟨rfl, rfl⟩ | ⟨bytes, rfl, holds⟩
  · exact ⟨_, rfl, .empty, c.now, rfl⟩
  · obtain ⟨s, decoded, keys, _, captured⟩ := holds.decode?
    exact ⟨s, by simp only [Context.loadState, decoded], keys, captured⟩

/-- The participant whose ledger is that of the state file; there is one unless the queue is too
large. -/
theorem Opens.loadService (h : c.Opens stateFile l) :
    ∃ s : Service, s.ledger = l ∧ KeysOnCurve s.registry.organizers ∧
      c.loadService stateFile =
        if queueLimit < c.settings.capacity then .error .queueSize else .ok s := by
  obtain ⟨s, loaded, keys, now, captured⟩ := h.loadState
  refine ⟨⟨l, ⟨s.organizers⟩, .ofCapacity c.settings.capacity⟩, rfl, keys, ?_⟩
  have restored : s.toService c.settings.capacity =
      .ok ⟨l, ⟨s.organizers⟩, .ofCapacity c.settings.capacity⟩ := by
    rw [WalletState.toService, captured, h.reached.restore]
    rfl
  simp only [Context.loadService, loaded, bind, Except.bind, openState, restored]

theorem Opens.of_loadService (h : c.Opens stateFile l) {s : Service}
    (loaded : c.loadService stateFile = .ok s) :
    s.ledger = l ∧ KeysOnCurve s.registry.organizers := by
  obtain ⟨t, ledger, keys, answer⟩ := h.loadService
  rw [answer] at loaded
  split at loaded
  · exact nomatch loaded
  · cases loaded
    exact ⟨ledger, keys⟩

/-- A file that a command may save: the key file, or a state file with a ledger that grew out of the one
before. -/
def MaySave (c : Context) (l : Ledger) : Ending → Prop
  | .done => True
  | .failed _ => True
  | .save path bytes _ => path = c.keyPath ∨
      path = c.statePath ∧ ∃ later, WalletState.Holds bytes later ∧ l.Grows later

theorem maySave_saveService (h : c.Opens stateFile l) {s next : Service}
    (loaded : c.loadService stateFile = .ok s) (advances : s.Advances next) (said : List String) :
    c.MaySave l (c.saveService next said) := by
  obtain ⟨rfl, keys⟩ := h.of_loadService loaded
  refine .inr ⟨rfl, next.ledger, ⟨next.registry.organizers, c.now, ?_, ?_, rfl⟩, advances.ledger⟩
  · rw [advances.registry]
    exact keys
  · exact advances.ledger.reached h.reached

/-- Saving the state with another organizer in it, and the ledger as it was. -/
theorem maySave_saveState (h : c.Opens stateFile l) {s : WalletState}
    (loaded : c.loadState stateFile = .ok s) (organization : String) {key : PublicKey}
    (point : key.isPoint = true) (said : List String) :
    c.MaySave l (c.saveState { s with organizers := s.organizers.insert organization key } said) := by
  obtain ⟨t, found, keys, now, captured⟩ := h.loadState
  cases found.symm.trans loaded
  refine .inr ⟨rfl, l, ⟨_, now, keys.insert organization point, h.reached, ?_⟩, .refl l⟩
  rw [captured]

end Context

theorem KeyFile.isPoint_of_decode? {bytes : List UInt8} {k : KeyFile} (h : decode? bytes = some k) :
    k.publicKey.isPoint = true := by
  obtain ⟨v, _, read⟩ := Option.bind_eq_some_iff.1 h
  unfold ofJson? at read
  obtain ⟨fields, _, read⟩ := Option.bind_eq_some_iff.1 read
  split at read
  · simp only [Option.bind_eq_bind, Option.bind_eq_some_iff] at read
    obtain ⟨key, found, _, _, _, _, _, _, read⟩ := read
    cases read
    exact PublicKey.isPoint_of_ofJson? found
  · exact nomatch read

namespace Context

variable {c : Context} {keyFile stateFile : Finding} {l : Ledger}

theorem isPoint_of_loadKey {k : KeyFile} (h : c.loadKey keyFile = .ok k) :
    k.publicKey.isPoint = true := by
  unfold loadKey at h
  split at h
  · exact nomatch h
  · exact nomatch h
  · split at h
    · exact nomatch h
    · split at h
      · next decoded =>
        cases h
        exact KeyFile.isPoint_of_decode? decoded
      · exact nomatch h

/-- An organizer is named by the text of a key or by a key file, and either was checked. -/
theorem isPoint_of_organizer {organizer : Option String} {key : PublicKey}
    (h : c.organizer keyFile organizer = .ok key) : key.isPoint = true := by
  cases organizer with
  | some text => exact PublicKey.isPoint_of_ofText (CashError.of_ofForm (Failure.of_ofCash h))
  | none =>
    unfold organizer at h
    cases loaded : c.loadKey keyFile with
    | error failure =>
      rw [loaded] at h
      exact nomatch h
    | ok k =>
      rw [loaded] at h
      cases h
      exact isPoint_of_loadKey loaded

/-- What a command saves after the state file was opened, it may save. -/
theorem Ends.maySave {command : Command} {ending : Ending} (h : c.Opens stateFile l)
    (ends : c.Ends keyFile stateFile command ending) : c.MaySave l ending := by
  cases ends with
  | failed failure => trivial
  | answered asks => trivial
  | present secret force => trivial
  | made secret force keys => exact .inl rfl
  | registered named loaded said =>
    exact maySave_saveState h loaded _ (isPoint_of_organizer named) said
  | issued organization amount beneficiaries loaded advances said =>
    exact maySave_saveService h loaded advances said
  | sent organization recipient amount loaded advances said =>
    exact maySave_saveService h loaded advances said

end Context

/-- The line for an organization whose indices are those that its log rebuilds. -/
def verifiedLine (l : Ledger) (organization : String) : String :=
  s!"✅ {organization} ({(l.log organization).length} transactions)"

theorem verifyAll_eq {l : Ledger} (reached : l.Reached) (organizations : List String) :
    verifyAll l organizations = (organizations.map (verifiedLine l), .ok true) := by
  induction organizations with
  | nil => rfl
  | cons organization rest ih =>
    have same := Ledger.verifyIndices_eq_true reached.replayable organization
    simp only [verifyAll, same, ih]
    rfl

theorem Plan.verify_eq {c : Context} {stateFile : Finding} {l : Ledger} (h : c.Opens stateFile l)
    (room : c.settings.capacity ≤ Context.queueLimit) :
    Plan.verify c stateFile none = ⟨l.organizations.map (verifiedLine l), .done⟩ := by
  obtain ⟨s, rfl, _, loaded⟩ := h.loadService
  rw [if_neg (Nat.not_lt_of_le room)] at loaded
  simp only [Plan.verify, loaded, bind, Except.bind, verifyAll_eq h.reached]
  rfl

end CoinLedger
