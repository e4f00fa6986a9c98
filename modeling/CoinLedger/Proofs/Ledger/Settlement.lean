import CoinLedger.Proofs.Ledger.Faithful
import CoinLedger.Proofs.Service.Payment

/-!
How a book settles. Debits come first and stop at zero, then the payments are added one by one and none
may bring a balance out of bounds. Main statement: on every book that a history led to, the outcome is
the one of exact arithmetic, owner by owner and in unbounded integers.
-/

namespace CoinLedger

open Validation (consumedBy)

namespace Book

/-- What an owner's consumed outputs are worth, if the mode takes them from its balance. -/
def debitOf (b : Book) (consumed : List OutPoint) (owner : Hash) : Nat :=
  match b.mode with
  | .runningCredit => 0
  | .strictUtxo => consumedWorth b.outputs.find? owner consumed

/-- What outputs pay an owner. -/
def creditOf (outputs : List Output) (owner : Hash) : Nat :=
  total (outputs.map (Output.worthTo owner))

/-- The balance that is due to an owner once both are settled. -/
def due (b : Book) (consumed : List OutPoint) (outputs : List Output) (owner : Hash) : Int :=
  b.balance owner - b.debitOf consumed owner + creditOf outputs owner

theorem creditOf_perm {outputs shuffled : List Output} (h : shuffled.Perm outputs) (owner : Hash) :
    creditOf shuffled owner = creditOf outputs owner := total_perm (h.map _)

namespace Faithful

variable {b : Book} {tx : Transaction}

theorem usedWorth_eq_debitOf (h : b.Faithful) (valid : Log.Valid b.mode b.log tx) (owner : Hash) :
    Log.usedWorth b.mode b.log tx.body (Output.worthTo owner) =
      b.debitOf (consumedBy tx.body) owner := by
  have worth := valid.consumedWorth_eq owner
  rw [← h.find?_outputs] at worth
  unfold Log.usedWorth debitOf
  cases b.mode with
  | runningCredit => rfl
  | strictUtxo => exact worth.symm

/-- No debit is cut off at zero, so what is due is what a debited balance comes to with the payments. -/
theorem due_eq (h : b.Faithful) (valid : Log.Valid b.mode b.log tx) (outputs : List Output)
    (owner : Hash) :
    b.due (consumedBy tx.body) outputs owner =
      (balanceIn (b.debited (consumedBy tx.body)) owner + creditOf outputs owner : Nat) := by
  have debited := h.balanceIn_debited_add valid owner
  rw [h.usedWorth_eq_debitOf valid] at debited
  unfold due
  omega

/-- Any payments can be added to the debited balances exactly when all that is then due is in bounds. -/
theorem settles_iff (h : b.Faithful) (valid : Log.Valid b.mode b.log tx) (outputs : List Output) :
    (∃ balances, b.settle? (consumedBy tx.body) outputs = some balances) ↔
      ∀ owner, b.due (consumedBy tx.body) outputs owner < coinBound := by
  rw [settle?_eq, creditAll_isSome_iff (h.balanceIn_debited_lt valid)]
  refine forall_congr' fun owner => ?_
  rw [h.due_eq valid, Int.ofNat_lt]
  rfl

theorem apply_eq_applied_iff (h : b.Faithful) (valid : Log.Valid b.mode b.log tx) :
    (∃ next, b.apply tx = .ok (next, .applied)) ↔
      ∃ balances, b.settle? (consumedBy tx.body) tx.body.outputs = some balances := by
  rw [h.apply_of_valid valid]
  cases b.settle? (consumedBy tx.body) tx.body.outputs <;> simp

theorem balance_eq_due (h : b.Faithful) (valid : Log.Valid b.mode b.log tx) {next : Book}
    (applied : b.apply tx = .ok (next, .applied)) (owner : Hash) :
    (next.balance owner : Int) = b.due (consumedBy tx.body) tx.body.outputs owner := by
  obtain ⟨balances, settled⟩ := (h.apply_eq_applied_iff valid).1 ⟨next, applied⟩
  rw [h.apply_of_valid valid, settled] at applied
  cases applied
  have appended := (h.append valid settled).balances owner
  rw [append_mode, append_log, h.owed_snoc valid] at appended
  rw [appended, h.due_eq valid]
  rfl

/-- What is no more than the debit makes up for, or would fit without it, is never out of bounds. -/
theorem due_lt_of_credit_le (h : b.Faithful) {consumed : List OutPoint} {outputs : List Output}
    {owner : Hash}
    (covered : creditOf outputs owner ≤ b.debitOf consumed owner ∨
      b.balance owner + creditOf outputs owner < coinBound) :
    b.due consumed outputs owner < coinBound := by
  have bounded := h.lawful.owed_lt owner
  rw [← h.balances owner] at bounded
  unfold due
  omega

end Faithful

/-- A transaction that passes the check against a book, and whose id is a new one, is applied exactly
when no balance that is due is out of bounds, and then these are the balances; otherwise it is refused
as an overflow. So the payments may come in any order, and no owner to whom as much is debited as is
paid, or whose balance has room for the payment, is a reason for a refusal. -/
theorem settlement_exact {mode : Accounting} {txs : List Transaction} {b : Book}
    (reached : (empty mode).after txs = b) {tx : Transaction} {a : Accepted}
    (accepted : validate tx b.outputs.find? mode = .ok a)
    (fresh : ∀ t ∈ b.log, t.id.bytes ≠ tx.id.bytes) :
    ((∃ next, b.apply tx = .ok (next, .applied)) ↔
      ∀ owner, b.due a.consumed tx.body.outputs owner < coinBound) ∧
    (∀ next, b.apply tx = .ok (next, .applied) →
      ∀ owner, (next.balance owner : Int) = b.due a.consumed tx.body.outputs owner) ∧
    ((∃ owner, (coinBound : Int) ≤ b.due a.consumed tx.body.outputs owner) →
      b.apply tx = .error .overflow) ∧
    (∀ shuffled : List Output, shuffled.Perm tx.body.outputs →
      ((∃ balances, b.settle? a.consumed shuffled = some balances) ↔
        ∃ balances, b.settle? a.consumed tx.body.outputs = some balances)) ∧
    ((∀ owner, creditOf tx.body.outputs owner ≤ b.debitOf a.consumed owner ∨
        b.balance owner + creditOf tx.body.outputs owner < coinBound) →
      ∃ next, b.apply tx = .ok (next, .applied)) := by
  have faithful : b.Faithful := reached ▸ faithful_after mode txs
  have same : b.mode = mode := reached ▸ mode_after _ txs
  subst same
  obtain ⟨valid, rfl⟩ := faithful.valid_iff.1 ⟨faithful.fresh_iff.2 fresh, accepted⟩
  have settles := faithful.settles_iff valid
  have applies := faithful.apply_eq_applied_iff valid
  refine ⟨applies.trans (settles _), fun next => faithful.balance_eq_due valid, ?_, ?_, ?_⟩
  · rintro ⟨owner, excess⟩
    rw [faithful.apply_of_valid valid]
    cases settled : b.settle? (consumedBy tx.body) tx.body.outputs with
    | none => rfl
    | some balances => exact absurd ((settles _).1 ⟨balances, settled⟩ owner) (Int.not_lt.2 excess)
  · intro shuffled perm
    rw [settles, settles]
    exact forall_congr' fun owner => by rw [due, due, creditOf_perm perm]
  · intro covered
    exact applies.2 ((settles _).2 fun owner => faithful.due_lt_of_credit_le (covered owner))

/-! All the coins that a balance can hold, paid back by their owner to itself in two parts. -/

section Payback

set_option maxRecDepth 100000

open Service (payerKey payerAddress)

def hoardId : Hash :=
  ⟨"noJT13sAvYTGuF0jkqyZvoFX8YnyDXHJpWVWcPiKMdU=", [158, 130, 83, 215, 123, 0, 189, 132, 198, 184, 93,
    35, 146, 172, 153, 190, 129, 87, 241, 137, 242, 13, 113, 201, 165, 101, 86, 112, 248, 138, 49, 213],
    rfl, by decide⟩

def hoard : Transaction where
  id := hoardId
  body := ⟨protocolVersion, [.coinbase], [⟨0xffffffffffffffff, payerAddress⟩], 0, by decide⟩
  id_eq := by decide +kernel

/-- The payer's address in another spelling. -/
def payerAlias : Hash := ⟨"NHUPmL1Z_PyUbaRaqr6TO-FUpLU", payerAddress.bytes, rfl, by decide⟩

def paybackUnlock : Unlock where
  key := payerKey
  signature :=
    ⟨[172, 103, 70, 194, 174, 144, 159, 190, 144, 79, 66, 40, 65, 252, 101, 124, 89, 96, 168, 213, 100,
      174, 119, 154, 249, 13, 186, 92, 13, 199, 108, 124, 76, 75, 6, 0, 132, 34, 202, 59, 207, 92, 218,
      100, 95, 239, 72, 74, 154, 173, 216, 161, 197, 169, 215, 89, 200, 215, 162, 89, 11, 15, 235, 4],
      rfl⟩

def payback : Transaction :=
  .ofBody
    { version := protocolVersion
      inputs := [⟨⟨hoardId, 0⟩, some paybackUnlock⟩]
      outputs := [⟨0xfffffffffffffffe, payerAlias⟩, ⟨1, payerAddress⟩]
      lockTime := 0
      outputs_fit := by decide }

/-- The balance and the payments together are far out of bounds, but the debit makes up for them. -/
theorem settlement_exact_payback :
    let b := (empty .strictUtxo).after [hoard]
    validate payback b.outputs.find? .strictUtxo = .ok ⟨[⟨hoardId, 0⟩], 0xffffffffffffffff⟩ ∧
      (∀ t ∈ b.log, t.id.bytes ≠ payback.id.bytes) ∧
      coinBound < b.balance payerAddress + creditOf payback.body.outputs payerAddress ∧
      ∃ next, b.apply payback = .ok (next, .applied) ∧
        (next.balance payerAddress : Int) =
          b.due [⟨hoardId, 0⟩] payback.body.outputs payerAddress := by
  intro b
  have accepted : validate payback b.outputs.find? .strictUtxo =
      .ok ⟨[⟨hoardId, 0⟩], 0xffffffffffffffff⟩ := eq_ok_of_toOption (by decide +kernel)
  have fresh : ∀ t ∈ b.log, t.id.bytes ≠ payback.id.bytes := by decide +kernel
  have beyond : coinBound < b.balance payerAddress + creditOf payback.body.outputs payerAddress := by
    decide +kernel
  have strict : b.mode = .strictUtxo := by decide +kernel
  have known : b.outputs.find? ⟨hoardId, 0⟩ = some ⟨payerAddress, 0xffffffffffffffff, false⟩ := by
    decide +kernel
  have covered : ∀ owner, creditOf payback.body.outputs owner ≤ b.debitOf [⟨hoardId, 0⟩] owner := by
    intro owner
    rw [debitOf, strict]
    by_cases own : payerAddress.bytes = owner.bytes
    · simp [creditOf, consumedWorth, known, recordWorth, payback, Transaction.ofBody, Output.worthTo,
        payerAlias, own]
    · simp [creditOf, payback, Transaction.ofBody, Output.worthTo, payerAlias, own]
  obtain ⟨_, balances, _, _, applies⟩ := settlement_exact rfl accepted fresh
  obtain ⟨next, applied⟩ := applies fun owner => .inl (covered owner)
  exact ⟨accepted, fresh, beyond, next, applied, balances next applied payerAddress⟩

end Payback

end Book

end CoinLedger
