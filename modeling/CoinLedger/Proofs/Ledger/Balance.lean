import CoinLedger.Proofs.Ledger.Faithful

/-!
Balances and records are derived data. Main statement: after every history a balance is the exact sum
of the outputs that pay the owner and are not used up, the records are exactly the outputs of the
log, and no step on the way there cuts a difference off at zero or lets a sum go out of bounds.
-/

namespace CoinLedger.Book

/-- Every debit is covered when its turn comes, so none is cut off at zero. -/
def DebitsCovered (b : Book) (consumed : List OutPoint) : Prop :=
  ∀ before o later record, consumed = before ++ o :: later → b.outputs.find? o = some record →
    record.value.toNat ≤
      balanceIn ((before.filterMap b.outputs.find?).foldl debit b.balances) record.owner

/-- Every payment adds up to less than the bound when its turn comes. -/
def CreditsFit (debited : Table Hash Nat) (outputs : List Output) : Prop :=
  ∀ before output later, outputs = before ++ output :: later →
    ∃ t, before.foldlM credit? debited = some t ∧
      balanceIn t output.owner + output.value.toNat < coinBound

theorem consumedWorth_append (lookup : OutPoint → Option OutputRecord) (owner : Hash)
    (os more : List OutPoint) :
    consumedWorth lookup owner (os ++ more) =
      consumedWorth lookup owner os + consumedWorth lookup owner more := by
  rw [consumedWorth, List.map_append, total_append]
  rfl

theorem consumedWorth_cons (lookup : OutPoint → Option OutputRecord) (owner : Hash)
    {o : OutPoint} {record : OutputRecord} (known : lookup o = some record) (os : List OutPoint) :
    consumedWorth lookup owner (o :: os) =
      recordWorth owner record + consumedWorth lookup owner os := by
  rw [consumedWorth, List.map_cons, total_cons, known]
  rfl

theorem debitsCovered_of_le {b : Book} {consumed : List OutPoint}
    (covered : ∀ owner, consumedWorth b.outputs.find? owner consumed ≤ b.balance owner) :
    b.DebitsCovered consumed := by
  rintro before o later record rfl known
  have all := covered record.owner
  rw [consumedWorth_append, consumedWorth_cons _ _ known, recordWorth, if_pos rfl] at all
  rw [balanceIn_debitAll, total_filterMap_recordWorth]
  change _ ≤ b.balance record.owner - _
  omega

theorem creditsFit_of_eq_some {t next : Table Hash Nat} {outputs : List Output}
    (h : outputs.foldlM credit? t = some next) : CreditsFit t outputs := by
  rintro before output later rfl
  rw [List.foldlM_append] at h
  obtain ⟨mid, first, h⟩ := Option.bind_eq_some_iff.1 h
  rw [List.foldlM_cons] at h
  obtain ⟨_, paid, _⟩ := Option.bind_eq_some_iff.1 h
  exact ⟨mid, first, (credit?_eq_some paid).1⟩

theorem Faithful.debitsCovered {b : Book} (h : b.Faithful) (strict : b.mode = .strictUtxo)
    {tx : Transaction} (valid : Log.Valid b.mode b.log tx) :
    b.DebitsCovered (Validation.consumedBy tx.body) := by
  apply debitsCovered_of_le
  intro owner
  have covered := valid.usedWorth_le h.lawful.distinct (Output.worthTo owner)
  rw [h.find?_outputs, valid.consumedWorth_eq, h.balances]
  rw [strict] at covered ⊢
  exact covered

theorem Faithful.find?_outputs_eq_some_iff {b : Book} (h : b.Faithful) {o : OutPoint}
    {record : OutputRecord} :
    b.outputs.find? o = some record ↔
      ∃ tx ∈ b.log, ∃ output, o.Names tx output ∧
        record = ⟨output.owner, output.value, decide (Log.Consumed b.mode b.log o)⟩ := by
  rw [h.outputs]
  constructor
  · intro known
    obtain ⟨output, found, same⟩ := Log.outputAt?_of_recordAt? known
    obtain ⟨tx, logged, names⟩ := Log.names_of_outputAt? found
    exact ⟨tx, logged, output, names, same⟩
  · rintro ⟨tx, logged, output, names, rfl⟩
    have found := h.lawful.distinct.outputAt?_eq_some_iff.2 ⟨tx, logged, names⟩
    rw [Log.recordAt?, found]
    rfl

theorem owed_strictUtxo (log : List Transaction) (owner : Hash) :
    Log.owed .strictUtxo log owner =
      total (((Log.payments log).filter fun e => ¬Log.Claimed log e.1).map
        fun e => e.2.worthTo owner) := by
  have tests : (fun e : OutPoint × Output => decide ¬Log.Consumed .strictUtxo log e.1) =
      fun e => decide ¬Log.Claimed log e.1 := by
    funext e
    exact decide_eq_decide.2 ⟨fun free used => free ⟨rfl, used⟩, fun free used => free used.2⟩
  rw [Log.owed, Log.openWorth, tests]

/-- The indices are the sums and records that the log defines, and the arithmetic that keeps them is
exact: what a new valid transaction consumes is covered, and what an accepted one pays fits. -/
theorem balance_exact (mode : Accounting) (txs : List Transaction) :
    (∀ owner, ((empty mode).after txs).balance owner < coinBound ∧
      ((empty mode).after txs).balance owner =
        match mode with
        | .runningCredit =>
          total ((Log.payments ((empty mode).after txs).log).map fun e => e.2.worthTo owner)
        | .strictUtxo =>
          total (((Log.payments ((empty mode).after txs).log).filter fun e =>
            ¬Log.Claimed ((empty mode).after txs).log e.1).map fun e => e.2.worthTo owner)) ∧
    (∀ o record, ((empty mode).after txs).outputs.find? o = some record ↔
      ∃ tx ∈ ((empty mode).after txs).log, ∃ output, o.Names tx output ∧
        record.owner = output.owner ∧ record.value = output.value ∧
        (record.spent = true ↔
          mode = .strictUtxo ∧ Log.Claimed ((empty mode).after txs).log o)) ∧
    ∀ tx a, ((empty mode).after txs).positions.find? tx.id = none →
      validate tx ((empty mode).after txs).outputs.find? mode = .ok a →
      (mode = .strictUtxo → ((empty mode).after txs).DebitsCovered a.consumed) ∧
      ∀ balances, ((empty mode).after txs).settle? a.consumed tx.body.outputs = some balances →
        CreditsFit (((empty mode).after txs).debited a.consumed) tx.body.outputs := by
  have faithful := faithful_after mode txs
  have same : ((empty mode).after txs).mode = mode := mode_after _ txs
  generalize (empty mode).after txs = b at *
  subst same
  refine ⟨?_, ?_, ?_⟩
  · intro owner
    rw [faithful.balances owner]
    refine ⟨faithful.lawful.owed_lt owner, ?_⟩
    cases b.mode with
    | runningCredit => exact Log.openWorth_runningCredit b.log _
    | strictUtxo => exact owed_strictUtxo b.log owner
  · intro o record
    rw [faithful.find?_outputs_eq_some_iff]
    have fields : ∀ output : Output,
        record = ⟨output.owner, output.value, decide (Log.Consumed b.mode b.log o)⟩ ↔
          record.owner = output.owner ∧ record.value = output.value ∧
            (record.spent = true ↔ b.mode = .strictUtxo ∧ Log.Claimed b.log o) := by
      intro output
      obtain ⟨owner, value, spent⟩ := record
      rw [OutputRecord.mk.injEq, Bool.eq_iff_iff, decide_eq_true_iff]
      rfl
    simp only [fields]
  · intro tx a fresh checked
    obtain ⟨valid, rfl⟩ := faithful.valid_iff.1 ⟨fresh, checked⟩
    refine ⟨fun strict => faithful.debitsCovered strict valid, fun balances settled => ?_⟩
    rw [settle?_eq] at settled
    exact creditsFit_of_eq_some settled

end CoinLedger.Book
