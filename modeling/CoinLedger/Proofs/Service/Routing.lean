import CoinLedger.Proofs.Service.Atomicity
import CoinLedger.Proofs.Service.Issuance
import CoinLedger.Proofs.Service.Minting

/-!
From an organization to its channel and back. Main statement: whatever text stands for an organization,
what is queued for it reaches its own book or none. If the text has no channel that can be read back, the
message is refused on its channel, before anything else is looked at.
-/

namespace CoinLedger

/-- What the wire gives back as it was. -/
structure Transaction.Readable (tx : Transaction) : Prop where
  schema : tx.body.checkSchema = .ok ()
  keyed : tx.body.KeysOnCurve

/-- Where a queued message goes that is delivered unchanged, to whichever participant and by whichever
sender. A text that is no channel is all that is looked at; on a channel its organization decides, and a
failure leaves nothing written in any book, even step by step. -/
structure Outbound.GoesTo (m : Outbound) (organization : String) (tx : Transaction) : Prop where
  channel : m.channel.text = "/root/" ++ organization ++ "/coin"
  astray : ¬Channel.Nameable organization → ∀ (s : Service) sender,
    s.deliver (m.delivery sender) = .error (.malformed (.channelText m.channel.text))
  asked : Channel.Nameable organization → tx.Readable → ∀ (s : Service) sender,
    s.deliver (m.delivery sender) =
      if tx.body.isCoinbase = true ∧ s.registry.mayIssue organization sender = false then
        .error (.unauthorized organization)
      else (s.ledger.apply organization tx).map fun (ledger, outcome) => ({ s with ledger }, outcome)
  elsewhere : ∀ (s : Service) sender next outcome,
    s.deliver (m.delivery sender) = .ok (next, outcome) → ∀ other, other ≠ organization →
      next.ledger.books.find? other = s.ledger.books.find? other
  refused : ∀ (s : Service) sender e, s.deliver (m.delivery sender) = .error e →
    Ledger.InPlace.deliver s.registry (m.delivery sender) s.ledger = .error e s.ledger

section Routes

variable {organization : String} {tx : Transaction}

theorem Ledger.deliver_of_channel_error {l : Ledger} {r : Registry} {d : Delivery}
    {cause : Malformed} (h : Channel.ofText d.channel = .error cause) :
    l.deliver r d = .error (.malformed cause) := by
  simp only [deliver, h]
  rfl

theorem Service.deliver_eq_error_iff {s : Service} {d : Delivery} {e : CashError} :
    s.deliver d = .error e ↔ s.ledger.deliver s.registry d = .error e := by
  unfold deliver
  cases s.ledger.deliver s.registry d <;> simp [Except.map]

/-- Whatever was delivered by whoever it may be: only the book of the organization that the channel names
is touched. -/
theorem Service.find?_of_deliver {s next : Service} {d : Delivery} {outcome : Outcome}
    (taken : s.deliver d = .ok (next, outcome)) :
    ∃ c, Channel.ofText d.channel = .ok c ∧ ∀ other, other ≠ c.organization →
      next.ledger.books.find? other = s.ledger.books.find? other := by
  obtain ⟨organization, _, reads, _, applied⟩ := Ledger.deliver_cases (deliver_eq_ok taken).2
  exact ⟨⟨organization⟩, reads.channel, fun _ => Ledger.find?_of_apply applied⟩

theorem Outbound.goesTo_of (organization : String) (tx : Transaction) :
    (Outbound.of organization tx).GoesTo organization tx where
  channel := Channel.text_eq organization
  astray unnamed s sender := by
    have lost : Channel.ofText ((Outbound.of organization tx).delivery sender).channel =
        .error (.channelText (Outbound.of organization tx).channel.text) :=
      Channel.ofText_text_of_not unnamed
    rw [Service.deliver_eq_error_iff, Ledger.deliver_of_channel_error lost]
  asked nameable readable s sender := by
    have reads := reads_delivery nameable readable.schema readable.keyed sender
    rw [Service.deliver, Ledger.deliver_of_reads s.ledger s.registry reads, apply_ite (Except.map _)]
    rfl
  elsewhere s sender next outcome taken := by
    obtain ⟨c, read, same⟩ := Service.find?_of_deliver taken
    cases Channel.eq_of_text_eq (Channel.ofText_eq_ok_iff.1 read).2
    exact same
  refused s sender e failed := by
    rw [Ledger.InPlace.run_deliver, Service.deliver_eq_error_iff.1 failed, allOrNothing]

end Routes

theorem Transaction.readable_of_mints {tx : Transaction} {beneficiaries : List Hash} {coins : Nat}
    (mints : Mints tx beneficiaries coins) : tx.Readable := ⟨mints.schema, mints.keyed⟩

namespace Service

/-- One more message was queued, and it goes to the organization. -/
def QueuesFor (s sent : Service) (organization : String) (tx : Transaction) : Prop :=
  ∃ m, sent.outbox.queue = s.outbox.queue ++ [m] ∧ m.GoesTo organization tx

section Queued

variable {s sent : Service} {organization : String} {tx : Transaction}

theorem queuesFor_of_submit (h : s.submit organization tx = .ok sent) :
    s.QueuesFor sent organization tx := by
  obtain ⟨_, _, rfl⟩ := submit_eq_ok_iff.1 h
  exact ⟨_, rfl, Outbound.goesTo_of organization tx⟩

theorem send_eq_ok_iff {signer : Signer} {recipient : Hash} {amount : Int64} :
    s.send organization signer recipient amount = .ok (sent, tx) ↔
      buildSpend signer recipient amount
          (s.ledger.spendable organization signer.publicKey.address) = .ok tx ∧
        s.submit organization tx = .ok sent := built_eq_ok_iff

/-- A payment out of what a reached ledger reports can be read by all, and makes no money. -/
theorem readable_of_buildSpend {signer : Signer} {recipient : Hash} {amount : Int64}
    {l : Ledger} (faithful : (l.book organization).Faithful)
    (point : signer.publicKey.isPoint = true)
    (built : buildSpend signer recipient amount
      (l.spendable organization signer.publicKey.address) = .ok tx) :
    tx.Readable ∧ tx.body.isCoinbase = false := by
  obtain ⟨some, rfl⟩ := eq_ofBody_of_buildSpend built
  have places : ∀ o ∈ ownedBy signer.publicKey.address
      (l.spendable organization signer.publicKey.address), 0 ≤ o.outpoint.index := by
    intro o member
    exact faithful.index_nonneg_of_mem_spendable o (List.mem_filter.1 member).1
  exact ⟨⟨checkSchema_paymentBody some places, keysOnCurve_paymentBody point⟩,
    isCoinbase_paymentBody⟩

end Queued

/-- No message is routed to another organization. A channel's text is read back for just the nameable
organizations, as the channel of the same organization, from no other text, and no two organizations
share one. So what is delivered touches at most the book of the organization that its channel spells.
What is queued, by a payment or an issuance, reaches its own organization or none; and there it is read,
if it was an issuance, or a payment that a signer with a key of the curve made out of a ledger that
transactions can lead to. -/
theorem queued_message_routed :
    (∀ organization c, Channel.ofText (Channel.text ⟨organization⟩) = .ok c ↔
      (organization ≠ "" ∧ '/' ∉ organization.toList) ∧ c.organization = organization) ∧
    (∀ text c, Channel.ofText text = .ok c ↔
      (c.organization ≠ "" ∧ '/' ∉ c.organization.toList) ∧
        text = "/root/" ++ c.organization ++ "/coin") ∧
    (∀ text c, Channel.ofText text = .ok c → c.text = text) ∧
    (∀ c : Channel, Channel.between (Text.utf8 c.text) = Text.utf8 c.organization) ∧
    (∀ c d : Channel, c.organization ≠ d.organization → c.text ≠ d.text) ∧
    (∀ s d next outcome, deliver s d = .ok (next, outcome) → ∃ organization,
      d.channel = "/root/" ++ organization ++ "/coin" ∧ ∀ other, other ≠ organization →
        next.ledger.books.find? other = s.ledger.books.find? other) ∧
    (∀ s organization tx sent, submit s organization tx = .ok sent →
      s.QueuesFor sent organization tx) ∧
    (∀ s organization signer recipient amount sent tx,
      send s organization signer recipient amount = .ok (sent, tx) →
        s.QueuesFor sent organization tx ∧
        ((∃ mode attempts, (Ledger.empty mode).after attempts = s.ledger) →
          signer.publicKey.isPoint = true → tx.Readable ∧ tx.body.isCoinbase = false)) ∧
    ∀ s grant beneficiaries amount sent tx,
      issue s grant beneficiaries amount = .ok (sent, tx) →
        s.QueuesFor sent grant.organization tx ∧ tx.Readable := by
  refine ⟨?_, ?_, ?_, Channel.between_utf8_text, ?_, ?_,
    fun s organization tx sent => queuesFor_of_submit, ?_, ?_⟩
  · intro organization c
    rw [Channel.ofText_eq_ok_iff]
    constructor
    · rintro ⟨nameable, same⟩
      cases Channel.eq_of_text_eq same
      exact ⟨⟨nameable.nonempty, nameable.plain⟩, rfl⟩
    · rintro ⟨⟨nonempty, plain⟩, rfl⟩
      exact ⟨⟨nonempty, plain⟩, rfl⟩
  · intro text c
    rw [Channel.ofText_eq_ok_iff, Channel.text_eq]
    exact and_congr_left fun _ => ⟨fun h => ⟨h.nonempty, h.plain⟩, fun h => ⟨h.1, h.2⟩⟩
  · intro text c read
    exact (Channel.ofText_eq_ok_iff.1 read).2.symm
  · intro c d apart same
    exact apart (congrArg Channel.organization (Channel.eq_of_text_eq same))
  · intro s d next outcome taken
    obtain ⟨c, read, same⟩ := find?_of_deliver taken
    refine ⟨c.organization, ?_, same⟩
    rw [(Channel.ofText_eq_ok_iff.1 read).2, Channel.text_eq]
  · intro s organization signer recipient amount sent tx queued
    obtain ⟨built, submitted⟩ := send_eq_ok_iff.1 queued
    refine ⟨queuesFor_of_submit submitted, ?_⟩
    rintro ⟨mode, attempts, reached⟩ point
    exact readable_of_buildSpend (Ledger.faithful_book reached organization) point built
  · intro s grant beneficiaries amount sent tx queued
    obtain ⟨built, submitted⟩ := built_eq_ok_iff.1 queued
    exact ⟨queuesFor_of_submit submitted,
      Transaction.readable_of_mints (mints_of_buildIssuance built)⟩

/-- An issuance for an organization with a slash in its text is queued, and lost wherever it arrives. -/
theorem queued_message_routed_astray :
    ∃ sent tx m, (Service.mk granted .empty (.ofCapacity 1)).issue ⟨"org/sub", payerKey⟩ [payee] 30 =
        .ok (sent, tx) ∧
      sent.outbox.queue = [m] ∧
      ∀ (s : Service) sender, s.deliver (m.delivery sender) =
        .error (.malformed (.channelText "/root/org/sub/coin")) := by
  have built : buildIssuance [payee] 30 = .ok (.ofBody (issuanceBody [payee] 30 (by decide))) :=
    buildIssuance_eq_ok_iff.2 ⟨by decide, by decide, by decide, by decide, rfl⟩
  have issued : (Service.mk granted .empty (.ofCapacity 1)).issue ⟨"org/sub", payerKey⟩ [payee] 30 =
      .ok (_, _) := issue_eq_ok_iff.2 ⟨built, rfl, by decide, rfl⟩
  obtain ⟨_, _, _, _, _, _, _, _, routes⟩ := queued_message_routed
  obtain ⟨⟨m, queue, goes⟩, _⟩ := routes _ _ _ _ _ _ issued
  have unnamed : ¬Channel.Nameable "org/sub" := fun nameable => nameable.plain (by decide)
  refine ⟨_, _, m, issued, queue, fun s sender => ?_⟩
  rw [goes.astray unnamed s sender, goes.channel]
  rfl

end Service

end CoinLedger
