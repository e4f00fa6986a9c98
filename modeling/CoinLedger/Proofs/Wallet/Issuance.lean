import CoinLedger.Proofs.Service.Issuance
import CoinLedger.Proofs.Wallet.Plan

/-!
What registering an organizer and issuing come to when nothing stands in the way. Main statement: if the
wallet's key is the organizer's, an issuance that can be built and applied comes back from the queue at
once, and the state is saved with the ledger that it leads to.
-/

namespace CoinLedger

/-- The issuance of an organizer is the only message of the queue, and comes back to be applied. -/
theorem Service.echo_of_issue {l : Ledger} {registry : Registry} {capacity : Nat} {grant : Grant}
    {beneficiaries : List Hash} {amount : Int64} {tx : Transaction}
    (built : buildIssuance beneficiaries amount = .ok tx)
    (nameable : Channel.Nameable grant.organization)
    (holder : registry.organizer? grant.organization = some grant.issuer) :
    ∃ queued, (Service.mk l registry (.ofCapacity capacity)).issue grant beneficiaries amount =
        .ok (queued, tx) ∧
      queued.echo grant.issuer = (l.apply grant.organization tx).map
        fun (next, outcome) => (⟨next, registry, .ofCapacity capacity⟩, [outcome]) := by
  have room : (Outbox.ofCapacity capacity).queue.length < (Outbox.ofCapacity capacity).capacity :=
    Nat.le_max_right capacity 1
  refine ⟨_, issue_eq_ok_iff.2 ⟨built, rfl, room, rfl⟩, ?_⟩
  have delivered : (Service.mk l registry (.ofCapacity capacity)).deliver
      ((Outbound.of grant.organization tx).delivery grant.issuer) = _ :=
    deliver_of_mints (mints_of_buildIssuance built) nameable holder
  have echoed : Service.echo ⟨l, registry, { Outbox.ofCapacity capacity with
      queue := (Outbox.ofCapacity capacity).queue ++ [.of grant.organization tx] }⟩ grant.issuer =
      (((Service.mk l registry (.ofCapacity capacity)).deliver
        ((Outbound.of grant.organization tx).delivery grant.issuer)).map
          fun answered => (answered.1, [answered.2])) >>= pure := rfl
  rw [echoed, delivered]
  cases l.apply grant.organization tx <;> rfl

/-- An issuance that is new and keeps every balance in bounds is applied. -/
theorem Service.issued_attempt {l : Ledger} {organization : String} {beneficiaries : List Hash}
    {amount : Int64} {tx : Transaction} (reached : l.Reached)
    (built : buildIssuance beneficiaries amount = .ok tx)
    (fresh : ∀ t ∈ l.log organization, t.id.bytes ≠ tx.id.bytes)
    (fits : ∀ owner, l.balance organization owner +
      amount.toNatClampNeg * occurrences owner beneficiaries < coinBound) :
    l.apply organization tx = .ok (l.attempt organization tx, .applied) ∧
      Issued l (l.attempt organization tx) organization beneficiaries amount.toNatClampNeg tx := by
  obtain ⟨attempts, history⟩ := reached
  obtain ⟨next, applied, issued⟩ := apply_of_mints (Ledger.faithful_book history organization)
    (mints_of_buildIssuance built) fresh fun ⟨owner, excess⟩ => Nat.not_lt_of_le excess (fits owner)
  cases Ledger.attempt_of_apply applied
  exact ⟨applied, issued⟩

/-- What the state file is read as, when it was saved of a ledger that some history led to. -/
theorem Context.loadService_encode {c : Context} {organizers : Table String PublicKey} {now : String}
    {l : Ledger} (keys : KeysOnCurve organizers) (reached : l.Reached)
    (room : c.settings.capacity ≤ queueLimit) :
    c.loadService (some (.ok (WalletState.mk organizers (.capture now l)).encode)) =
      .ok ⟨l, ⟨organizers⟩, .ofCapacity c.settings.capacity⟩ := by
  obtain ⟨attempts, history⟩ := id reached
  have read := loadState_encode (c := c) (s := ⟨organizers, .capture now l⟩) keys
    (Ledger.keysOnCurve_capture history now)
  have restored : (WalletState.mk organizers (.capture now l)).toService c.settings.capacity =
      .ok ⟨l, ⟨organizers⟩, .ofCapacity c.settings.capacity⟩ := by
    rw [WalletState.toService, reached.restore]
    rfl
  simp only [loadService, read, bind, Except.bind, openState, restored,
    if_neg (Nat.not_lt_of_le room)]

/-- The organizer is registered in what was found, and nothing else is changed. -/
theorem Plan.ending_registerOrganizer {c : Context} {keyFile stateFile : Finding}
    {organizer : Option String} {key : PublicKey} {s : WalletState} (organization : String)
    (named : c.organizer keyFile organizer = .ok key) (loaded : c.loadState stateFile = .ok s) :
    ∃ said, (Plan.registerOrganizer c keyFile stateFile organization organizer).ending =
      c.saveState { s with organizers := s.organizers.insert organization key } said := by
  simp only [Plan.registerOrganizer, named, loaded, bind, Except.bind]
  exact ⟨_, rfl⟩

section Issuing

variable {c : Context} {keyFile : Finding} {organization amount : String}
  {beneficiaries : List String} {k : KeyFile} {keys : KeyPair} {value : Int64} {addresses : List Hash}
  {organizers : Table String PublicKey} {now : String} {l next : Ledger} {tx : Transaction}
  {outcome : Outcome}

theorem Plan.ending_issue (loaded : c.loadKey keyFile = .ok k) (own : k.keys = .ok keys)
    (whole : amountOfText amount = .ok value) (named : addressesOfTexts beneficiaries = .ok addresses)
    (curve : KeysOnCurve organizers) (reached : l.Reached)
    (room : c.settings.capacity ≤ Context.queueLimit)
    (holder : organizers.find? organization = some keys.publicKey)
    (nameable : Channel.Nameable organization) (built : buildIssuance addresses value = .ok tx)
    (applied : l.apply organization tx = .ok (next, outcome)) :
    ∃ said, (Plan.issue c keyFile
        (some (.ok (WalletState.mk organizers (.capture now l)).encode)) organization amount
          beneficiaries).ending = c.saveState ⟨organizers, .capture c.now next⟩ said := by
  have opened : c.loadService (some (.ok (WalletState.mk organizers (.capture now l)).encode)) =
      .ok ⟨l, ⟨organizers⟩, .ofCapacity c.settings.capacity⟩ :=
    Context.loadService_encode curve reached room
  let grant : Grant := ⟨organization, keys.publicKey⟩
  have granted : Grant.request ⟨organizers⟩ organization keys.publicKey = .ok grant :=
    if_pos (decide_eq_true holder)
  obtain ⟨queued, issued, echoed⟩ : ∃ queued,
      (Service.mk l ⟨organizers⟩ (.ofCapacity c.settings.capacity)).issue grant addresses value =
          .ok (queued, tx) ∧ queued.echo keys.publicKey = _ :=
    Service.echo_of_issue built nameable holder
  rw [applied] at echoed
  refine ⟨transactionLines tx ++ ["", "✅ Issuance applied"], ?_⟩
  simp only [Plan.issue, loaded, own, whole, named, opened, granted, issued, echoed, bind, Except.bind,
    Failure.ofCash]
  rfl

end Issuing

end CoinLedger
