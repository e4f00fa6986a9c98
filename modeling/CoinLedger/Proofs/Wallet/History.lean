import CoinLedger.Proofs.Ledger.Spendable
import CoinLedger.Proofs.Ledger.Uncharged
import CoinLedger.Wallet.Plan

/-!
What a history shows as received. The sum of each line is taken in 64 bits without any check; it is the
check that the transaction once passed which keeps it in bounds. Main statement: every line is exact,
and all lines together are what the owner has and what the owner has spent.
-/

namespace CoinLedger

/-- No addition goes out of bounds when the values are added up one by one, from zero. -/
def AddsUp (values : List UInt64) : Prop :=
  ∀ before v later, values = before ++ v :: later →
    (before.foldl (· + ·) 0).toNat + v.toNat < UInt64.size

theorem toNat_foldl_add {values : List UInt64} {start : UInt64}
    (fits : start.toNat + total (values.map UInt64.toNat) < UInt64.size) :
    (values.foldl (· + ·) start).toNat = start.toNat + total (values.map UInt64.toNat) := by
  induction values generalizing start with
  | nil => rfl
  | cons v values ih =>
    rw [List.map_cons, total_cons] at fits ⊢
    have step : (start + v).toNat = start.toNat + v.toNat := by
      rw [UInt64.toNat_add]
      exact Nat.mod_eq_of_lt (show _ < UInt64.size by omega)
    rw [List.foldl_cons, ih (by omega), step, Nat.add_assoc]

theorem toNat_sum {values : List UInt64} (fits : total (values.map UInt64.toNat) < UInt64.size) :
    (values.foldl (· + ·) 0).toNat = total (values.map UInt64.toNat) := by
  rw [toNat_foldl_add (by rwa [UInt64.toNat_zero, Nat.zero_add]), UInt64.toNat_zero, Nat.zero_add]

theorem addsUp_of_lt {values : List UInt64} (fits : total (values.map UInt64.toNat) < UInt64.size) :
    AddsUp values := by
  rintro before v later rfl
  simp only [List.map_append, List.map_cons, total_append, total_cons] at fits
  rw [toNat_sum (by omega)]
  omega

/-- The values that a transaction pays to an owner, in the order in which they are added up. -/
def Transaction.valuesTo (owner : Hash) (tx : Transaction) : List UInt64 :=
  (tx.body.outputs.filter fun o => o.owner.bytes = owner.bytes).map Output.value

theorem received_eq (owner : Hash) (tx : Transaction) :
    received owner tx = (tx.valuesTo owner).foldl (· + ·) 0 := rfl

/-- What a transaction pays to an owner. -/
def Transaction.worthTo (owner : Hash) (tx : Transaction) : Nat :=
  total (tx.body.outputs.map (Output.worthTo owner))

theorem Transaction.total_valuesTo (owner : Hash) (tx : Transaction) :
    total ((tx.valuesTo owner).map UInt64.toNat) = tx.worthTo owner := by
  rw [valuesTo, List.map_map, worthTo]
  exact (total_map_ite tx.body.outputs (fun o => o.owner.bytes = owner.bytes) _).symm

theorem Transaction.worthTo_le_outputSum (owner : Hash) (tx : Transaction) :
    tx.worthTo owner ≤ tx.body.outputSum := by
  apply total_map_le
  intro o _
  rw [Output.worthTo]
  split
  · exact Nat.le_refl _
  · exact Nat.zero_le _

theorem Transaction.worthTo_of_not_paysTo {owner : Hash} {tx : Transaction}
    (pays : tx.paysTo owner = false) : tx.worthTo owner = 0 := by
  apply total_map_eq_zero
  intro o member
  exact if_neg (by simpa using List.any_eq_false.1 pays o member)

/-- A transaction that passed the checks pays no owner out of bounds. -/
theorem Log.Valid.worthTo_lt {mode : Accounting} {log : List Transaction} {tx : Transaction}
    (h : Valid mode log tx) (owner : Hash) : tx.worthTo owner < UInt64.size :=
  Nat.lt_of_le_of_lt (tx.worthTo_le_outputSum owner) h.bounded

theorem Log.total_worthTo_log (owner : Hash) (log : List Transaction) :
    total (log.map (Transaction.worthTo owner)) = owed .runningCredit log owner := by
  rw [owed, openWorth_runningCredit]
  induction log with
  | nil => rfl
  | cons tx log ih =>
    have split : payments (tx :: log) = tx.payments ++ payments log := List.flatMap_cons
    rw [List.map_cons, total_cons, ih, split, List.map_append, total_append, total_payments]
    rfl

namespace Book

variable {b : Book}

/-- Whoever is paid nothing by a transaction does not miss it in a history. -/
theorem Faithful.total_transactionsOf (h : b.Faithful) (owner : Hash) :
    total ((b.transactionsOf owner).map (Transaction.worthTo owner)) =
      Log.owed .runningCredit b.log owner := by
  have split := total_filter_add_total_filter_not b.log (Transaction.paysTo owner)
    (Transaction.worthTo owner)
  have others : total ((b.log.filter fun tx => !tx.paysTo owner).map (Transaction.worthTo owner)) =
      0 := by
    apply total_map_eq_zero
    intro tx member
    exact Transaction.worthTo_of_not_paysTo (by simpa using (List.mem_filter.1 member).2)
  rw [h.transactionsOf_eq, ← Log.total_worthTo_log, ← split, others, Nat.add_zero]

theorem Faithful.received_exact_of_mem (h : b.Faithful) {owner : Hash} {tx : Transaction}
    (listed : tx ∈ b.transactionsOf owner) :
    AddsUp (tx.valuesTo owner) ∧ (received owner tx).toNat = tx.worthTo owner := by
  rw [h.transactionsOf_eq] at listed
  obtain ⟨_, valid⟩ := h.lawful.valid_of_mem (List.mem_filter.1 listed).1
  have fits := valid.worthTo_lt owner
  rw [received_eq]
  rw [← tx.total_valuesTo] at fits ⊢
  exact ⟨addsUp_of_lt fits, toNat_sum fits⟩

/-- In the history of any owner no line's sum goes out of bounds on the way, and each line says what its
transaction pays the owner. Together the lines add up to the balance, or under the strict mode to the
balance and what was spent of it. -/
theorem received_exact (mode : Accounting) (txs : List Transaction) (owner : Hash) :
    (∀ tx ∈ ((empty mode).after txs).transactionsOf owner,
      AddsUp (tx.valuesTo owner) ∧ (received owner tx).toNat = tx.worthTo owner) ∧
    total ((((empty mode).after txs).transactionsOf owner).map fun tx => (received owner tx).toNat) =
      match mode with
      | .runningCredit => ((empty mode).after txs).balance owner
      | .strictUtxo =>
        ((empty mode).after txs).balance owner + ((empty mode).after txs).spentWorth owner := by
  have faithful := faithful_after mode txs
  have same : ((empty mode).after txs).mode = mode := mode_after _ txs
  generalize (empty mode).after txs = b at *
  subst same
  refine ⟨fun tx listed => faithful.received_exact_of_mem listed, ?_⟩
  have lines : (b.transactionsOf owner).map (fun tx => (received owner tx).toNat) =
      (b.transactionsOf owner).map (Transaction.worthTo owner) :=
    List.map_congr_left fun tx listed => (faithful.received_exact_of_mem listed).2
  rw [lines, faithful.total_transactionsOf]
  cases mode : b.mode with
  | runningCredit => rw [faithful.balances, mode]
  | strictUtxo => exact (faithful.balance_add_spentWorth owner).symm

end Book

end CoinLedger
