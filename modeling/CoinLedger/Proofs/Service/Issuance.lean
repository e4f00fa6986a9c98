import CoinLedger.Proofs.Issuance
import CoinLedger.Proofs.Service.Payment

/-!
An issuance from the organizer to the ledger. Main statement: when one can be queued, and what its
delivery does on any ledger that transactions can lead to. The id of an issuance is made of its
content only, so an issuance that was made before is taken for the old one and pays nothing.
-/

namespace CoinLedger

namespace Log

variable {mode : Accounting} {log : List Transaction} {tx : Transaction} {beneficiaries : List Hash}
  {coins : Nat}

theorem valid_of_mints (mints : Mints tx beneficiaries coins)
    (fresh : ∀ t ∈ log, t.id.bytes ≠ tx.id.bytes) : Valid mode log tx where
  schema := mints.schema
  fresh := fresh
  bounded := mints.bounded
  spend spends := by
    rw [mints.coinbase] at spends
    exact nomatch spends

theorem owed_snoc_of_mints (mints : Mints tx beneficiaries coins) (lawful : Lawful mode log)
    (fresh : ∀ t ∈ log, t.id.bytes ≠ tx.id.bytes) (owner : Hash) :
    owed mode (log ++ [tx]) owner = owed mode log owner + coins * occurrences owner beneficiaries := by
  have valid : Valid mode log tx := valid_of_mints mints fresh
  have change := valid.openWorth_snoc_of_coinbase lawful mints.coinbase (Output.worthTo owner)
  rwa [mints.pays] at change

end Log

namespace Service

section Issuing

variable {mode : Accounting} {attempts : List (String × Transaction)} {l : Ledger}
  {registry : Registry} {outbox : Outbox} {grant : Grant} {beneficiaries : List Hash} {amount : Int64}
  {tx : Transaction}

theorem issue_eq_ok_iff {sent : Service} :
    (Service.mk l registry outbox).issue grant beneficiaries amount = .ok (sent, tx) ↔
      buildIssuance beneficiaries amount = .ok tx ∧ outbox.closed = false ∧
        outbox.queue.length < outbox.capacity ∧
        sent = ⟨l, registry, { outbox with queue := outbox.queue ++ [.of grant.organization tx] }⟩ :=
  built_eq_ok_iff.trans (and_congr_right fun _ => submit_eq_ok_iff)

/-- Some owner's balance would go out of bounds. -/
def IssuanceOverflows (l : Ledger) (organization : String) (beneficiaries : List Hash)
    (coins : Nat) : Prop :=
  ∃ owner, coinBound ≤ l.balance organization owner + coins * occurrences owner beneficiaries

/-- What an applied issuance has changed, and all that it has changed. -/
structure Issued (l next : Ledger) (organization : String) (beneficiaries : List Hash) (coins : Nat)
    (tx : Transaction) : Prop where
  log : next.log organization = l.log organization ++ [tx]
  elsewhere : ∀ other, other ≠ organization → next.book other = l.book other
  balances : ∀ owner, next.balance organization owner =
    l.balance organization owner + coins * occurrences owner beneficiaries

section Applying

variable {organization : String} {coins : Nat}

theorem apply_of_mints_of_overflows (faithful : (l.book organization).Faithful)
    (mints : Mints tx beneficiaries coins)
    (fresh : ∀ t ∈ l.log organization, t.id.bytes ≠ tx.id.bytes)
    (excess : IssuanceOverflows l organization beneficiaries coins) :
    l.apply organization tx = .error .overflow := by
  obtain ⟨owner, excess⟩ := excess
  have owed := Log.owed_snoc_of_mints mints faithful.lawful fresh owner
  rw [← faithful.balances] at owed
  have unbounded := Nat.le_trans excess (Nat.le_of_eq owed.symm)
  exact Ledger.apply_of_owed_ge faithful (Log.valid_of_mints mints fresh) unbounded

theorem apply_of_mints (faithful : (l.book organization).Faithful)
    (mints : Mints tx beneficiaries coins)
    (fresh : ∀ t ∈ l.log organization, t.id.bytes ≠ tx.id.bytes)
    (fits : ¬IssuanceOverflows l organization beneficiaries coins) :
    ∃ next, l.apply organization tx = .ok (next, .applied) ∧
      Issued l next organization beneficiaries coins tx := by
  have owed := Log.owed_snoc_of_mints mints faithful.lawful fresh
  have bounded : ∀ owner,
      Log.owed (l.book organization).mode (l.log organization ++ [tx]) owner < coinBound := by
    intro owner
    rw [Ledger.log, owed, ← faithful.balances]
    exact Nat.lt_of_not_le fun excess => fits ⟨owner, excess⟩
  obtain ⟨next, applied, appends⟩ :=
    Ledger.apply_of_owed_lt faithful (Log.valid_of_mints mints fresh) bounded
  refine ⟨next, applied, appends.log, appends.elsewhere, ?_⟩
  intro owner
  rw [appends.balance, Ledger.log, owed, ← faithful.balances, Ledger.balance]

theorem deliver_of_mints (mints : Mints tx beneficiaries coins)
    (nameable : Channel.Nameable organization) {organizer : PublicKey}
    (holder : registry.organizer? organization = some organizer) :
    (Service.mk l registry outbox).deliver ((Outbound.of organization tx).delivery organizer) =
      (l.apply organization tx).map
        fun (ledger, outcome) => (⟨ledger, registry, outbox⟩, outcome) := by
  have allowed : registry.mayIssue organization organizer = true := decide_eq_true holder
  rw [deliver, Ledger.deliver_delivery nameable mints.schema mints.keyed fun _ => allowed]

end Applying

/-- From an issuance by the registered organizer to its delivery, on any ledger that transactions can
lead to. What was queued is taken for an old transaction, and changes nothing, exactly when its id is
in the log; else it is applied, and each owner gets the amount as often as the owner is listed, unless
that brings a balance out of bounds. -/
theorem issue_then_deliver (reached : (Ledger.empty mode).after attempts = l) (outbox : Outbox)
    (nonempty : grant.organization ≠ "") (plain : '/' ∉ grant.organization.toList)
    (holder : registry.organizer? grant.organization = some grant.issuer)
    (beneficiaries : List Hash) (amount : Int64) :
    ((∃ sent tx,
        (Service.mk l registry outbox).issue grant beneficiaries amount = .ok (sent, tx)) ↔
      outbox.closed = false ∧ outbox.queue.length < outbox.capacity ∧ 0 ≤ amount ∧
        beneficiaries ≠ [] ∧ beneficiaries.length < placeBound ∧
        amount.toNatClampNeg * beneficiaries.length < coinBound) ∧
    ∀ sent tx, (Service.mk l registry outbox).issue grant beneficiaries amount = .ok (sent, tx) →
      sent = ⟨l, registry, { outbox with queue := outbox.queue ++ [.of grant.organization tx] }⟩ ∧
      ((∃ t ∈ l.log grant.organization, t.id.bytes = tx.id.bytes) →
        ∃ next, sent.deliver ((Outbound.of grant.organization tx).delivery grant.issuer) =
            .ok (⟨next, registry, sent.outbox⟩, .alreadyApplied) ∧
          ∀ organization, next.book organization = l.book organization) ∧
      ((∀ t ∈ l.log grant.organization, t.id.bytes ≠ tx.id.bytes) →
        (IssuanceOverflows l grant.organization beneficiaries amount.toNatClampNeg →
          sent.deliver ((Outbound.of grant.organization tx).delivery grant.issuer) =
            .error .overflow) ∧
        (¬IssuanceOverflows l grant.organization beneficiaries amount.toNatClampNeg →
          ∃ next, sent.deliver ((Outbound.of grant.organization tx).delivery grant.issuer) =
              .ok (⟨next, registry, sent.outbox⟩, .applied) ∧
            Issued l next grant.organization beneficiaries amount.toNatClampNeg tx)) := by
  have faithful := Ledger.faithful_book reached grant.organization
  refine ⟨⟨?_, ?_⟩, ?_⟩
  · rintro ⟨sent, tx, issued⟩
    obtain ⟨built, opened, room, _⟩ := issue_eq_ok_iff.1 issued
    obtain ⟨nonneg, some, bounded, fit, _⟩ := buildIssuance_eq_ok_iff.1 built
    rw [length_issuanceOutputs] at fit
    exact ⟨opened, room, nonneg, some, fit, bounded⟩
  · rintro ⟨opened, room, nonneg, some, fit, bounded⟩
    rw [← length_issuanceOutputs beneficiaries amount.toUInt64] at fit
    have built := buildIssuance_eq_ok_iff.2 ⟨nonneg, some, bounded, fit, rfl⟩
    exact ⟨_, _, issue_eq_ok_iff.2 ⟨built, opened, room, rfl⟩⟩
  · intro sent tx issued
    obtain ⟨built, _, _, rfl⟩ := issue_eq_ok_iff.1 issued
    have mints := mints_of_buildIssuance built
    refine ⟨rfl, ?_, ?_⟩
    · intro logged
      obtain ⟨next, applied, same⟩ := Ledger.apply_of_logged faithful logged
      refine ⟨next, ?_, same⟩
      rw [deliver_of_mints mints ⟨nonempty, plain⟩ holder, applied]
      rfl
    · intro fresh
      constructor
      · intro excess
        rw [deliver_of_mints mints ⟨nonempty, plain⟩ holder,
          apply_of_mints_of_overflows faithful mints fresh excess]
        rfl
      · intro fits
        obtain ⟨next, applied, issued⟩ := apply_of_mints faithful mints fresh fits
        refine ⟨next, ?_, issued⟩
        rw [deliver_of_mints mints ⟨nonempty, plain⟩ holder, applied]
        rfl

end Issuing

/-! Issuances where a hundred coins were granted already. -/

section Granted

set_option maxRecDepth 100000

/-- The payer is the organizer as well. -/
def organized : Registry := Registry.empty.register "org" payerKey

theorem organizer?_organized : organized.organizer? "org" = some payerKey := by
  rw [organized, Registry.register, Registry.organizer?, Table.find?_insert_self]

theorem owed_grant (owner : Hash) :
    Log.owed .strictUtxo [grant] owner = Output.worthTo owner ⟨100, payerAddress⟩ := rfl

theorem id_issuance_ne :
    (issuanceBody [payee, payerAddress, payee] 30 (by decide)).id.bytes ≠ grantId.bytes := by
  decide +kernel

theorem issue_then_deliver_thirty :
    ∃ sent tx next, (Service.mk granted organized (.ofCapacity 1)).issue ⟨"org", payerKey⟩
        [payee, payerAddress, payee] 30 = .ok (sent, tx) ∧
      sent.deliver ((Outbound.of "org" tx).delivery payerKey) =
        .ok (⟨next, organized, sent.outbox⟩, .applied) ∧
      next.balance "org" payee = 60 ∧ next.balance "org" payerAddress = 130 := by
  have reached : (Ledger.empty .strictUtxo).after [("org", grant)] = granted := rfl
  obtain ⟨queued, delivered⟩ := @issue_then_deliver _ _ _ organized ⟨"org", payerKey⟩ reached
    (.ofCapacity 1) (by decide) (by decide) organizer?_organized [payee, payerAddress, payee] 30
  obtain ⟨sent, tx, issued⟩ := queued.2 ⟨rfl, by decide, by decide, by decide, by decide, by decide⟩
  obtain ⟨built, _⟩ := issue_eq_ok_iff.1 issued
  obtain ⟨_, _, _, fit, rfl⟩ := buildIssuance_eq_ok_iff.1 built
  have fresh : ∀ t ∈ granted.log "org",
      t.id.bytes ≠ (Transaction.ofBody (issuanceBody [payee, payerAddress, payee] 30 fit)).id.bytes := by
    intro t logged same
    rw [log_granted] at logged
    cases List.mem_singleton.1 logged
    exact id_issuance_ne same.symm
  have fits : ¬IssuanceOverflows granted "org" [payee, payerAddress, payee] 30 := by
    rintro ⟨owner, excess⟩
    have listed : occurrences owner [payee, payerAddress, payee] ≤ 3 := List.countP_le_length
    have worth : Output.worthTo owner ⟨100, payerAddress⟩ ≤ 100 := by
      unfold Output.worthTo
      split <;> decide
    have bound : coinBound = 2 ^ 64 := rfl
    rw [balance_granted, owed_grant] at excess
    omega
  obtain ⟨next, applied, paid⟩ := ((delivered _ _ issued).2.2 fresh).2 fits
  refine ⟨sent, _, next, issued, applied, ?_, ?_⟩
  · rw [paid.balances, balance_granted, owed_grant]
    decide
  · rw [paid.balances, balance_granted, owed_grant]
    decide

/-- The grant of a hundred issued once more: it is queued and delivered without an error, and pays
nothing. -/
theorem grant_reissued_unpaid :
    ∃ sent tx next, (Service.mk granted organized (.ofCapacity 1)).issue ⟨"org", payerKey⟩
        [payerAddress] 100 = .ok (sent, tx) ∧
      sent.deliver ((Outbound.of "org" tx).delivery payerKey) =
        .ok (⟨next, organized, sent.outbox⟩, .alreadyApplied) ∧
      occurrences payerAddress [payerAddress] = 1 ∧ granted.balance "org" payerAddress = 100 ∧
      next.balance "org" payerAddress = 100 := by
  have built : buildIssuance [payerAddress] 100 = .ok (.ofBody grantBody) :=
    buildIssuance_eq_ok_iff.2 ⟨by decide, by decide, by decide, by decide, rfl⟩
  have before : granted.balance "org" payerAddress = 100 := by
    rw [balance_granted, owed_grant]
    decide
  have logged : ∃ t ∈ granted.log "org", t.id.bytes = (Transaction.ofBody grantBody).id.bytes := by
    refine ⟨grant, ?_, congrArg Hash.bytes grant.id_eq⟩
    rw [log_granted]
    exact List.mem_singleton_self grant
  obtain ⟨next, applied, same⟩ := Ledger.apply_of_logged faithful_granted logged
  refine ⟨_, _, next, issue_eq_ok_iff.2 ⟨built, rfl, by decide, rfl⟩, ?_, by decide, before, ?_⟩
  · rw [deliver_of_mints (mints_of_buildIssuance built) ⟨by decide, by decide⟩ organizer?_organized,
      applied]
    rfl
  · rw [Ledger.balance, same]
    exact before

end Granted

end Service

end CoinLedger
