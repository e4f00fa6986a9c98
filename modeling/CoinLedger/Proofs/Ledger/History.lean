import CoinLedger.Ledger.Basic

/-!
Histories of books and ledgers: any transactions, applied in order, of which some are refused and
some are repeated. Main statements: what one attempt can do to a book, that a property kept by every
accepted transaction holds after every history, and that a ledger keeps for each organization the
book of the attempts made there.
-/

namespace CoinLedger

namespace Book

/-- The book after one attempt to apply a transaction. A refused one leaves it as it was. -/
def attempt (b : Book) (tx : Transaction) : Book :=
  match b.apply tx with
  | .ok (next, _) => next
  | .error _ => b

def after (b : Book) (txs : List Transaction) : Book := txs.foldl attempt b

@[simp] theorem after_nil (b : Book) : b.after [] = b := rfl

@[simp] theorem after_cons (b : Book) (tx : Transaction) (txs : List Transaction) :
    b.after (tx :: txs) = (b.attempt tx).after txs := rfl

theorem after_append (b : Book) (txs more : List Transaction) :
    b.after (txs ++ more) = (b.after txs).after more := List.foldl_append

/-- What the book finds out about a transaction before it appends it. -/
structure Accepts (b : Book) (tx : Transaction) (a : Accepted) (balances : Table Hash Nat) :
    Prop where
  fresh : b.positions.find? tx.id = none
  valid : validate tx b.outputs.find? b.mode = .ok a
  settled : b.settle? a.consumed tx.body.outputs = some balances

theorem Accepts.apply_eq {b : Book} {tx : Transaction} {a : Accepted} {balances : Table Hash Nat}
    (h : b.Accepts tx a balances) :
    b.apply tx = .ok (b.append tx a.consumed balances, .applied) := by
  simp [apply, h.fresh, h.valid, h.settled]

/-- An answer without an error is about a logged id or about an accepted transaction. -/
theorem apply_cases {b next : Book} {tx : Transaction} {outcome : Outcome}
    (h : b.apply tx = .ok (next, outcome)) :
    ((b.positions.find? tx.id).isSome ∧ next = b ∧ outcome = .alreadyApplied) ∨
      ∃ a balances, b.Accepts tx a balances ∧ next = b.append tx a.consumed balances ∧
        outcome = .applied := by
  unfold apply at h
  split at h
  · next known =>
    cases h
    exact .inl ⟨known, rfl, rfl⟩
  · next fresh =>
    split at h
    · exact nomatch h
    · next a valid =>
      split at h
      · exact nomatch h
      · next balances settled =>
        cases h
        exact .inr ⟨a, balances, ⟨by simpa using fresh, valid, settled⟩, rfl, rfl⟩

theorem attempt_cases (b : Book) (tx : Transaction) :
    b.attempt tx = b ∨
      ∃ a balances, b.Accepts tx a balances ∧ b.attempt tx = b.append tx a.consumed balances := by
  unfold attempt
  split
  · next next outcome h =>
    rcases apply_cases h with ⟨_, same, _⟩ | ⟨a, balances, accepts, appended, _⟩
    · exact .inl same
    · exact .inr ⟨a, balances, accepts, appended⟩
  · exact .inl rfl

/-- What every accepted transaction keeps, a history keeps. -/
theorem after_induction {P : Book → Prop}
    (step : ∀ b tx a balances, P b → b.Accepts tx a balances → P (b.append tx a.consumed balances))
    {b : Book} (start : P b) (txs : List Transaction) : P (b.after txs) := by
  induction txs generalizing b with
  | nil => exact start
  | cons tx txs ih =>
    rw [after_cons]
    rcases attempt_cases b tx with same | ⟨a, balances, accepts, appended⟩
    · rw [same]
      exact ih start
    · rw [appended]
      exact ih (step b tx a balances start accepts)

@[simp] theorem append_mode (b : Book) (tx : Transaction) (consumed : List OutPoint)
    (balances : Table Hash Nat) : (b.append tx consumed balances).mode = b.mode := rfl

@[simp] theorem append_log (b : Book) (tx : Transaction) (consumed : List OutPoint)
    (balances : Table Hash Nat) : (b.append tx consumed balances).log = b.log ++ [tx] := rfl

@[simp] theorem mode_after (b : Book) (txs : List Transaction) : (b.after txs).mode = b.mode :=
  after_induction (P := fun c => c.mode = b.mode) (fun _ _ _ _ same _ => same) rfl txs

end Book

namespace Ledger

def attempt (l : Ledger) (organization : String) (tx : Transaction) : Ledger :=
  match l.apply organization tx with
  | .ok (next, _) => next
  | .error _ => l

def after (l : Ledger) (attempts : List (String × Transaction)) : Ledger :=
  attempts.foldl (fun l a => l.attempt a.1 a.2) l

/-- The attempts that were made in one organization. -/
def attemptsIn (organization : String) (attempts : List (String × Transaction)) :
    List Transaction :=
  (attempts.filter fun a => a.1 = organization).map Prod.snd

@[simp] theorem book_empty (mode : Accounting) (organization : String) :
    (empty mode).book organization = .empty mode := rfl

theorem book_insert (l : Ledger) (organization other : String) (b : Book) :
    (⟨l.mode, l.books.insert organization b⟩ : Ledger).book other =
      if other = organization then b else l.book other := by
  have key : Keyed.key other = Keyed.key organization ↔ other = organization := by
    simp [Keyed.key]
  simp only [book, Table.find?_insert, key]
  split <;> rfl

theorem book_insert_self (l : Ledger) (organization : String) (b : Book) :
    (⟨l.mode, l.books.insert organization b⟩ : Ledger).book organization = b := by
  rw [book_insert, if_pos rfl]

/-- A book that knows an id is listed: the empty one knows none. -/
theorem find?_of_known {l : Ledger} {organization : String} {id : Hash}
    (known : ((l.book organization).positions.find? id).isSome = true) :
    l.books.find? organization = some (l.book organization) := by
  unfold book at known ⊢
  cases listed : l.books.find? organization with
  | none =>
    rw [listed] at known
    cases known
  | some b => rfl

theorem apply_of_error {l : Ledger} {organization : String} {tx : Transaction} {e : CashError}
    (h : (l.book organization).apply tx = .error e) : l.apply organization tx = .error e := by
  simp only [apply, h]

theorem apply_of_ok {l : Ledger} {organization : String} {tx : Transaction} {b : Book}
    {outcome : Outcome} (h : (l.book organization).apply tx = .ok (b, outcome)) :
    l.apply organization tx = .ok (⟨l.mode, l.books.insert organization b⟩, outcome) := by
  simp only [apply, h]

theorem attempt_of_apply {l next : Ledger} {organization : String} {tx : Transaction}
    {outcome : Outcome} (h : l.apply organization tx = .ok (next, outcome)) :
    l.attempt organization tx = next := by
  rw [attempt, h]

theorem attempt_of_error {l : Ledger} {organization : String} {tx : Transaction} {e : CashError}
    (h : (l.book organization).apply tx = .error e) : l.attempt organization tx = l := by
  rw [attempt, apply_of_error h]

theorem attempt_of_ok {l : Ledger} {organization : String} {tx : Transaction} {b : Book}
    {outcome : Outcome} (h : (l.book organization).apply tx = .ok (b, outcome)) :
    l.attempt organization tx = ⟨l.mode, l.books.insert organization b⟩ :=
  attempt_of_apply (apply_of_ok h)

theorem mode_attempt (l : Ledger) (organization : String) (tx : Transaction) :
    (l.attempt organization tx).mode = l.mode := by
  cases h : (l.book organization).apply tx with
  | error e => rw [attempt_of_error h]
  | ok result => rw [attempt_of_ok h]

theorem mode_after (l : Ledger) (attempts : List (String × Transaction)) :
    (l.after attempts).mode = l.mode := by
  induction attempts generalizing l with
  | nil => rfl
  | cons a attempts ih => exact (ih (l.attempt a.1 a.2)).trans (mode_attempt l a.1 a.2)

theorem book_attempt (l : Ledger) (organization other : String) (tx : Transaction) :
    (l.attempt organization tx).book other =
      if other = organization then (l.book other).attempt tx else l.book other := by
  cases h : (l.book organization).apply tx with
  | error e =>
    rw [attempt_of_error h]
    split
    · next same => rw [same, Book.attempt, h]
    · rfl
  | ok result =>
    rw [attempt_of_ok h, book_insert]
    split
    · next same => rw [same, Book.attempt, h]
    · rfl

/-- The book of an organization is the one that the attempts made there lead to. -/
theorem book_after (l : Ledger) (attempts : List (String × Transaction)) (organization : String) :
    (l.after attempts).book organization =
      (l.book organization).after (attemptsIn organization attempts) := by
  induction attempts generalizing l with
  | nil => rfl
  | cons a attempts ih =>
    have step := ih (l.attempt a.1 a.2)
    rw [book_attempt] at step
    by_cases same : a.1 = organization
    · rw [if_pos same.symm] at step
      simpa [after, attemptsIn, same] using step
    · rw [if_neg fun e => same e.symm] at step
      simpa [after, attemptsIn, same] using step

end Ledger

end CoinLedger
