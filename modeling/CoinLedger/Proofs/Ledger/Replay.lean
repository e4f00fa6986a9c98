import CoinLedger.Proofs.Ledger.History

/-!
Replaying a log. What was refused or repeated left no trace, so the log alone leads through the same
accepted transactions to the same book. Main statement: every book that a history leads to is the
replay of its own log, in every index and every mark, and so no check of indices ever fails.
-/

namespace CoinLedger

namespace Book

theorem applyAll_append (b : Book) (txs more : List Transaction) :
    b.applyAll (txs ++ more) = (b.applyAll txs).bind fun next => next.applyAll more := by
  induction txs generalizing b with
  | nil => rfl
  | cons tx txs ih =>
    simp only [List.cons_append, applyAll]
    cases b.apply tx with
    | error e => rfl
    | ok result => exact ih result.1

theorem applyAll_singleton (b : Book) (tx : Transaction) :
    b.applyAll [tx] = (b.apply tx).map Prod.fst := by
  rw [applyAll]
  cases b.apply tx <;> rfl

theorem replay_snoc (mode : Accounting) (log : List Transaction) (tx : Transaction) :
    replay mode (log ++ [tx]) =
      (replay mode log).bind fun b => (b.apply tx).map Prod.fst := by
  rw [replay, applyAll_append]
  simp only [applyAll_singleton]
  rfl

/-- The log of the book leads to the book itself. -/
def Replayable (b : Book) : Prop := replay b.mode b.log = .ok b

theorem replayable_empty (mode : Accounting) : (empty mode).Replayable := rfl

theorem Replayable.append {b : Book} (h : b.Replayable) {tx : Transaction} {a : Accepted}
    {balances : Table Hash Nat} (accepts : b.Accepts tx a balances) :
    (b.append tx a.consumed balances).Replayable := by
  rw [Replayable, append_mode, append_log, replay_snoc, h]
  change (b.apply tx).map Prod.fst = _
  rw [accepts.apply_eq]
  rfl

theorem replayable_after (mode : Accounting) (txs : List Transaction) :
    ((empty mode).after txs).Replayable :=
  after_induction (fun _ _ _ _ replayable accepts => replayable.append accepts)
    (replayable_empty mode) txs

theorem sameIndex_self (b : Book) : b.sameIndex b = true := by simp [sameIndex]

end Book

theorem Ledger.verifyIndices_eq_true {l : Ledger}
    (replayable : ∀ organization, (l.book organization).Replayable) (organization : String) :
    l.verifyIndices organization = .ok true := by
  unfold verifyIndices
  cases found : l.books.find? organization with
  | none => rfl
  | some b =>
    have kept := replayable organization
    rw [book, found, Option.getD_some, Book.Replayable] at kept
    simp only [kept, Except.map, Book.sameIndex_self]

/-- A log is all that a book needs: replayed, it gives back the log, the places, the index of
owners, the balances and the records with their marks. So the indices of every organization, known or
not, are found to be those that its log rebuilds. -/
theorem Book.replay_exact (mode : Accounting) :
    (∀ txs, replay mode ((empty mode).after txs).log = .ok ((empty mode).after txs)) ∧
    ∀ attempts organization,
      ((Ledger.empty mode).after attempts).verifyIndices organization = .ok true := by
  refine ⟨?_, ?_⟩
  · intro txs
    have replayable := replayable_after mode txs
    rw [Replayable, mode_after] at replayable
    exact replayable
  · intro attempts
    refine Ledger.verifyIndices_eq_true fun organization => ?_
    rw [Ledger.book_after, Ledger.book_empty]
    exact replayable_after mode _

end CoinLedger
