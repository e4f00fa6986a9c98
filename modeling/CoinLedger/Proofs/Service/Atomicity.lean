import CoinLedger.Proofs.Ledger.InPlace
import CoinLedger.Proofs.Service.Delivery
import CoinLedger.Proofs.Snapshot

/-!
Deliveries write all or nothing. Main statement: step by step, with whatever a failure leaves written, a
delivery that is refused or has come before leaves the whole ledger as it was; one that is applied
touches one book, where the log has one transaction more and no earlier record loses owner, value or
mark. So a book is listed exactly when its log is not empty.
-/

namespace CoinLedger

namespace Log

variable {mode : Accounting} {log : List Transaction} {tx : Transaction}

/-- No outpoint names an output of the log and one of a transaction under a new id. -/
theorem Valid.outputAt?_singleton_eq_none (h : Valid mode log tx) {o : OutPoint} {output : Output}
    (known : outputAt? log o = some output) : outputAt? [tx] o = none := by
  cases new : outputAt? [tx] o with
  | none => rfl
  | some other =>
    obtain ⟨t, logged, old⟩ := names_of_outputAt? known
    obtain ⟨s, member, names⟩ := names_of_outputAt? new
    cases List.mem_singleton.1 member
    exact absurd (old.1.symm.trans names.1) (h.fresh t logged)

end Log

/-- A later record of the same output: owner and value are the same, and a mark stays. -/
structure OutputRecord.Keeps (record later : OutputRecord) : Prop where
  owner : later.owner = record.owner
  value : later.value = record.value
  spent : record.spent = true → later.spent = true

theorem Book.Faithful.keeps_records {b : Book} (h : b.Faithful) {tx : Transaction} {a : Accepted}
    {balances : Table Hash Nat} (accepts : b.Accepts tx a balances) {o : OutPoint}
    {record : OutputRecord} (known : b.outputs.find? o = some record) :
    ∃ later, (b.append tx a.consumed balances).outputs.find? o = some later ∧ record.Keeps later := by
  obtain ⟨valid, _, _⟩ := h.accepts_iff.1 accepts
  rw [h.outputs] at known
  obtain ⟨output, found, _⟩ := Log.outputAt?_of_recordAt? known
  rw [(h.append_of_accepts accepts).outputs, append_mode, append_log,
    valid.recordAt?_snoc h.lawful, valid.outputAt?_singleton_eq_none found, known]
  refine ⟨_, rfl, ?_⟩
  split
  · exact ⟨rfl, rfl, fun _ => rfl⟩
  · exact ⟨rfl, rfl, id⟩

namespace Ledger

variable {l next : Ledger} {organization : String} {tx : Transaction}

/-- One book has taken one transaction; the others are untouched. -/
structure Takes (l next : Ledger) (organization : String) (tx : Transaction) : Prop where
  mode : next.mode = l.mode
  log : next.log organization = l.log organization ++ [tx]
  elsewhere : ∀ other, other ≠ organization → next.books.find? other = l.books.find? other
  records : ∀ o record, (l.book organization).outputs.find? o = some record →
    ∃ later, (next.book organization).outputs.find? o = some later ∧ record.Keeps later

/-- Whatever the answer without an error is, no other book is touched. -/
theorem find?_of_apply {other : String} {outcome : Outcome}
    (applied : l.apply organization tx = .ok (next, outcome)) (apart : other ≠ organization) :
    next.books.find? other = l.books.find? other := by
  unfold apply at applied
  split at applied
  · exact nomatch applied
  · cases applied
    exact (Table.find?_insert_text _ _ _ _).trans (if_neg apart)

theorem takes_of_apply (faithful : (l.book organization).Faithful)
    (applied : l.apply organization tx = .ok (next, .applied)) : l.Takes next organization tx := by
  have elsewhere : ∀ other, other ≠ organization →
      next.books.find? other = l.books.find? other := fun _ => find?_of_apply applied
  unfold apply at applied
  split at applied
  · exact nomatch applied
  · next b outcome answer =>
    cases applied
    rcases Book.apply_cases answer with ⟨_, _, none⟩ | ⟨a, balances, accepts, rfl, _⟩
    · exact nomatch none
    · refine ⟨rfl, ?_, elsewhere, ?_⟩
      · rw [Ledger.log, book_insert_self]
        rfl
      · intro o record known
        rw [book_insert_self]
        exact faithful.keeps_records accepts known

/-- What has come before is not written again, nor is its organization put among the books. -/
theorem eq_of_alreadyApplied (applied : l.apply organization tx = .ok (next, .alreadyApplied)) :
    next = l := by
  unfold apply at applied
  split at applied
  · exact nomatch applied
  · next b outcome answer =>
    cases applied
    rcases Book.apply_cases answer with ⟨known, rfl, _⟩ | ⟨_, _, _, _, none⟩
    · rw [Table.insert_of_find? (find?_of_known known)]
    · exact nomatch none

theorem mem_organizations_iff (listed : l.Listed) :
    organization ∈ l.organizations ↔ l.log organization ≠ [] := by
  constructor
  · intro member
    obtain ⟨⟨name, b⟩, entry, rfl⟩ := List.mem_map.1 member
    rw [Ledger.log, book_of_mem entry]
    exact listed name b (Table.mem_entries_iff.1 entry)
  · intro logged
    cases found : l.books.find? organization with
    | none =>
      rw [Ledger.log, book, found] at logged
      exact absurd rfl logged
    | some b => exact List.mem_map_of_mem (Table.mem_entries_iff.2 found)

namespace InPlace

/-- Reads and authorizes a delivery before any book is looked at. -/
def deliver (r : Registry) (d : Delivery) : InPlace Outcome := do
  let channel ← MonadExcept.ofExcept (CashError.ofForm (Channel.ofText d.channel))
  let message ← MonadExcept.ofExcept (CashError.ofForm (Message.decode d.payload))
  let tx ← MonadExcept.ofExcept (CashError.ofForm message.transaction)
  if tx.body.isCoinbase ∧ r.mayIssue channel.organization d.sender = false then
    throw (.unauthorized channel.organization)
  apply channel.organization tx

theorem run_deliver (l : Ledger) (r : Registry) (d : Delivery) :
    deliver r d l = allOrNothing l (l.deliver r d) := by
  unfold deliver Ledger.deliver
  simp only [run_ofExcept_bind]
  cases CashError.ofForm (Channel.ofText d.channel) with
  | error e => rfl
  | ok channel =>
    simp only [bind, Except.bind]
    cases CashError.ofForm (Message.decode d.payload) with
    | error e => rfl
    | ok message =>
      simp only
      cases CashError.ofForm message.transaction with
      | error e => rfl
      | ok tx =>
        simp only
        split
        · rfl
        · exact run_apply l channel.organization tx

end InPlace

/-- Whatever was tried before, and whatever is delivered under whichever organizers, written to the
ledger step by step: it ends as the delivery at once does, with the ledger as it was after an error; a
transaction that came before changes nothing either; and one that is applied is the one that the message
carries, in the organization that the channel names, and all that changes. Only organizations with
something in their log are listed. -/
theorem deliver_atomic (mode : Accounting) (attempts : List (String × Transaction)) (r : Registry)
    (d : Delivery) :
    InPlace.deliver r d ((empty mode).after attempts) =
      allOrNothing ((empty mode).after attempts) (((empty mode).after attempts).deliver r d) ∧
    (∀ e last, InPlace.deliver r d ((empty mode).after attempts) = .error e last →
      last = (empty mode).after attempts) ∧
    (∀ last, InPlace.deliver r d ((empty mode).after attempts) = .ok .alreadyApplied last →
      last = (empty mode).after attempts) ∧
    (∀ last, InPlace.deliver r d ((empty mode).after attempts) = .ok .applied last →
      ∃ organization tx, d.Reads organization tx ∧
        ((empty mode).after attempts).Takes last organization tx) ∧
    ∀ organization, organization ∈ ((empty mode).after attempts).organizations ↔
      ((empty mode).after attempts).log organization ≠ [] := by
  have faithful : ∀ organization, (((empty mode).after attempts).book organization).Faithful :=
    faithful_book rfl
  have listed := listed_after mode attempts
  generalize (empty mode).after attempts = l at *
  rw [InPlace.run_deliver]
  refine ⟨rfl, ?_, ?_, ?_, fun organization => mem_organizations_iff listed⟩
  · intro e last failed
    exact (allOrNothing_eq_error_iff.1 failed).2
  · intro last answered
    obtain ⟨_, _, _, _, applied⟩ := deliver_cases (allOrNothing_eq_ok_iff.1 answered)
    exact eq_of_alreadyApplied applied
  · intro last answered
    obtain ⟨organization, tx, reads, _, applied⟩ :=
      deliver_cases (allOrNothing_eq_ok_iff.1 answered)
    exact ⟨organization, tx, reads, takes_of_apply (faithful organization) applied⟩

end Ledger

end CoinLedger
