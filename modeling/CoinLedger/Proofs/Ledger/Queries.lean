import CoinLedger.Proofs.Ledger.Spendable

/-!
What a book is asked. Four indices are kept apart from each other: the places of the ids, the ids that
pay each owner, the records of the outputs, and the balances. Main statement: after every history they
answer as one, namely as the log says, however an id or an owner is spelled.
-/

namespace CoinLedger.Book

/-- The record of an output is marked as spent. -/
def marks (b : Book) (o : OutPoint) : Bool := (b.outputs.find? o).any OutputRecord.spent

/-- The answers of a book about ids and owners are those of its log. -/
structure AnswersFromLog (b : Book) : Prop where
  distinct : b.log.Pairwise fun s t => s.id.bytes ≠ t.id.bytes
  transaction : ∀ id tx, b.transaction? id = some tx ↔ tx ∈ b.log ∧ tx.id.bytes = id.bytes
  /-- In the order of the log, and each once since the log has each once. -/
  transactions : ∀ owner, b.transactionsOf owner =
    b.log.filter fun tx => ∃ o ∈ tx.body.outputs, o.owner.bytes = owner.bytes
  /-- In the order of the log, and of the outputs in each transaction. -/
  spendable : ∀ owner, b.spendable owner =
    ((Log.payments b.log).filter fun e => e.2.owner.bytes = owner.bytes ∧ b.marks e.1 = false).map
      (asSpendable owner)
  spendable_once : ∀ owner, (b.spendable owner).Pairwise fun s t => ¬s.outpoint.Same t.outpoint
  spendable_named : ∀ owner, ∀ s ∈ b.spendable owner, ∃ tx ∈ b.log, ∃ output,
    s.outpoint.Names tx output ∧ output.owner.bytes = owner.bytes ∧ output.value = s.value
  spendableSum : ∀ owner, spendableSum (b.spendable owner) = b.balance owner

namespace Faithful

variable {b : Book}

theorem transaction?_eq_some_iff (h : b.Faithful) {id : Hash} {tx : Transaction} :
    b.transaction? id = some tx ↔ tx ∈ b.log ∧ tx.id.bytes = id.bytes := by
  constructor
  · intro found
    rw [h.transaction?_eq_find?] at found
    exact ⟨List.mem_of_find?_eq_some found, by simpa using List.find?_some found⟩
  · rintro ⟨logged, same⟩
    rw [← h.transaction?_of_mem logged, h.transaction?_eq_find?, h.transaction?_eq_find?, same]

theorem marks_eq_false_iff (h : b.Faithful) {e : OutPoint × Output} (member : e ∈ Log.payments b.log) :
    b.marks e.1 = false ↔ ¬Log.Consumed b.mode b.log e.1 := by
  rw [← h.any_spent_iff member, marks, Bool.not_eq_true]

theorem spendable_eq_unmarked (h : b.Faithful) (owner : Hash) :
    b.spendable owner =
      ((Log.payments b.log).filter fun e =>
        e.2.owner.bytes = owner.bytes ∧ b.marks e.1 = false).map (asSpendable owner) := by
  rw [h.spendable_eq, Log.openFor]
  congr 1
  apply List.filter_congr
  intro e member
  rw [decide_eq_decide, h.marks_eq_false_iff member]

theorem spendable_pairwise (h : b.Faithful) (owner : Hash) :
    (b.spendable owner).Pairwise fun s t => ¬s.outpoint.Same t.outpoint := by
  rw [h.spendable_eq, List.pairwise_map]
  exact h.lawful.distinct.payments.filter _

theorem names_of_mem_spendable (h : b.Faithful) {owner : Hash} {s : Spendable}
    (member : s ∈ b.spendable owner) :
    ∃ tx ∈ b.log, ∃ output,
      s.outpoint.Names tx output ∧ output.owner.bytes = owner.bytes ∧ output.value = s.value := by
  rw [h.spendable_eq] at member
  obtain ⟨e, unused, rfl⟩ := List.mem_map.1 member
  obtain ⟨paid, owns, _⟩ := Log.mem_openFor_iff.1 unused
  obtain ⟨tx, logged, pays⟩ := List.mem_flatMap.1 paid
  have names := Transaction.names_iff.2 ⟨e, pays, OutPoint.Same.refl e.1, rfl⟩
  exact ⟨tx, logged, e.2, names, owns, rfl⟩

end Faithful

/-- Whatever was tried on a new book: ids are told apart, and each of its answers is what a reading of
the log gives, down to the values of the spendable outputs, whose sum is the balance in either mode. -/
theorem answersFromLog_after (mode : Accounting) (txs : List Transaction) :
    ((empty mode).after txs).AnswersFromLog := by
  have faithful := faithful_after mode txs
  generalize (empty mode).after txs = b at *
  exact
    { distinct := faithful.lawful.distinct
      transaction := fun id tx => faithful.transaction?_eq_some_iff
      transactions := by
        intro owner
        rw [faithful.transactionsOf_eq]
        apply List.filter_congr
        intro tx _
        rw [Transaction.paysTo, Bool.eq_iff_iff, List.any_eq_true]
        simp
      spendable := faithful.spendable_eq_unmarked
      spendable_once := faithful.spendable_pairwise
      spendable_named := fun owner s => faithful.names_of_mem_spendable
      spendableSum := faithful.spendableSum_eq }

end CoinLedger.Book
