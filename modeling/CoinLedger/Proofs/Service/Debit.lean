import CoinLedger.Proofs.Ledger.Debit
import CoinLedger.Proofs.Service.Minting
import CoinLedger.Proofs.Service.Payment

/-!
What a delivery, whoever sent it and whatever it carries, can take from an owner. Main statement: it
takes something only under the strict mode, only if it carries a transaction with an input that the
owner signed, and no more than the owner's outputs that such inputs name.
-/

namespace CoinLedger

namespace Service

/-- A delivery changes nothing, or it is one attempt on one book. -/
theorem ledger_deliver_cases (s : Service) (d : Delivery) :
    (s.call (.deliver d)).ledger = s.ledger ∨
      ∃ organization tx, d.Reads organization tx ∧
        (s.call (.deliver d)).ledger = s.ledger.attempt organization tx := by
  rcases call_deliver_cases s d with same | ⟨next, outcome, same, delivered⟩
  · exact .inl (by rw [same])
  · obtain ⟨organization, tx, reads, _, applied⟩ := Ledger.deliver_cases (deliver_eq_ok delivered).2
    exact .inr ⟨organization, tx, reads, by rw [same, Ledger.attempt_of_apply applied]⟩

variable {mode : Accounting} {attempts : List (String × Transaction)} {l : Ledger}

/-- Coins leave an owner only under the owner's own signature. Whatever is delivered, by whoever it
may be: if the balance drops, the mode is strict, an input of the delivered transaction shows a key of
the owner that signed this very transaction, and the drop is covered by the owner's outputs that the
inputs so signed name, each counted once. Through any further history the balance does not drop at
all under running credit, nor while the owner signs nothing. -/
theorem debit_authorized (reached : (Ledger.empty mode).after attempts = l) (registry : Registry)
    (outbox : Outbox) (organization : String) (owner : Hash) :
    (∀ d, ((Service.mk l registry outbox).call (.deliver d)).ledger.balance organization owner <
        l.balance organization owner →
      mode = .strictUtxo ∧ ∃ tx, d.Reads organization tx ∧
        (∃ i ∈ tx.body.inputs, ∃ u, i.unlock = some u ∧ u.key.address.bytes = owner.bytes ∧
          u.key.verify tx.body.signingPayload u.signature = true) ∧
        l.balance organization owner -
            ((Service.mk l registry outbox).call (.deliver d)).ledger.balance organization owner ≤
          Log.namedWorth (l.log organization) (tx.body.inputsSignedBy owner) owner) ∧
    ∀ more, (mode = .runningCredit ∨ ∀ tx ∈ Ledger.attemptsIn organization more,
        tx.body.inputsSignedBy owner = []) →
      l.balance organization owner ≤ (l.after more).balance organization owner := by
  have faithful := Ledger.faithful_book reached organization
  have same := Ledger.mode_book reached organization
  refine ⟨fun d drop => ?_, fun more unsigned => ?_⟩
  · rcases ledger_deliver_cases ⟨l, registry, outbox⟩ d with kept | ⟨named, tx, reads, tried⟩
    · rw [kept] at drop
      exact absurd drop (Nat.lt_irrefl _)
    · rw [tried, Ledger.balance, Ledger.balance, Ledger.book_attempt] at drop ⊢
      by_cases here : organization = named
      · rw [if_pos here] at drop ⊢
        obtain ⟨strict, signed, covered⟩ := faithful.debit_signed drop
        exact ⟨same ▸ strict, tx, here ▸ reads, signed, covered⟩
      · rw [if_neg here] at drop
        exact absurd drop (Nat.lt_irrefl _)
  · rw [Ledger.balance, Ledger.balance, Ledger.book_after]
    exact faithful.balance_le_after (same.symm ▸ unsigned)

/-- The payment of thirty takes thirty of a hundred coins, which its one input named and the payer
signed. -/
theorem debit_authorized_thirty :
    ∃ d tx, granted.balance "org" payerAddress = 100 ∧
      ((Service.mk granted .empty (.ofCapacity 1)).call (.deliver d)).ledger.balance "org"
        payerAddress = 70 ∧
      d.Reads "org" tx ∧
      (∃ i ∈ tx.body.inputs, ∃ u, i.unlock = some u ∧ u.key.address.bytes = payerAddress.bytes ∧
        u.key.verify tx.body.signingPayload u.signature = true) ∧
      30 ≤ Log.namedWorth (granted.log "org") (tx.body.inputsSignedBy payerAddress) payerAddress := by
  obtain ⟨next, delivered, paid⟩ := deliver_thirty (.ofCapacity 1) payerKey
  have called : ((Service.mk granted .empty (.ofCapacity 1)).call
      (.deliver ((Outbound.of "org" thirty).delivery payerKey))).ledger = next := by
    rw [call, delivered]
    rfl
  have before : granted.balance "org" payerAddress = 100 := by
    rw [balance_granted]
    decide +kernel
  have after : next.balance "org" payerAddress = 70 := by
    rw [paid.balances]
    change (granted.book "org").balanceAfter payerKey.address payee 30 payerAddress = 70
    rw [address_payerKey, Book.balanceAfter, if_neg (by decide), if_pos rfl]
    change granted.balance "org" payerAddress - 30 = 70
    rw [before]
  have reached : (Ledger.empty .strictUtxo).after [("org", grant)] = granted := rfl
  have authorized := (debit_authorized reached .empty (.ofCapacity 1) "org" payerAddress).1
    ((Outbound.of "org" thirty).delivery payerKey)
  rw [called, before, after] at authorized
  obtain ⟨_, tx, reads, signed, covered⟩ := authorized (by decide)
  exact ⟨_, tx, before, called ▸ after, reads, signed, covered⟩

end Service

end CoinLedger
