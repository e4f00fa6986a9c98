import CoinLedger.Spend

/-!
The book of one organization: its log of transactions, and beside it the indices that every
transaction keeps up to date. The log is the record; the indices can be rebuilt from it. A refused
transaction leaves the book as it was. The books of all organizations are a ledger: a book exists from
its first accepted transaction on, and no book is touched by what is applied to another.
-/

namespace CoinLedger

/-! ### The book of an organization -/

inductive Outcome where
  | applied
  /-- The id was in the log; nothing changed. -/
  | alreadyApplied
  deriving DecidableEq, Repr

/-- The log of one organization and its indices: the place of each id, the ids that pay each owner,
the balance of each owner, and every output ever paid. -/
structure Book where
  mode : Accounting
  log : List Transaction
  positions : Table Hash Nat
  byOwner : Table Hash (List Hash)
  balances : Table Hash Nat
  outputs : Table OutPoint OutputRecord

namespace Book

def empty (mode : Accounting) : Book := ⟨mode, [], .empty, .empty, .empty, .empty⟩

/-- The balance of an owner; nobody has coins unless a transaction paid them. -/
def balanceIn (balances : Table Hash Nat) (owner : Hash) : Nat := (balances.find? owner).getD 0

def balance (b : Book) (owner : Hash) : Nat := balanceIn b.balances owner

/-- Takes a consumed output from its owner's balance, but nothing below zero. -/
def debit (balances : Table Hash Nat) (record : OutputRecord) : Table Hash Nat :=
  balances.insert record.owner (balanceIn balances record.owner - record.value.toNat)

/-- Adds a payment to its owner's balance, if the sum stays in bounds. -/
def credit? (balances : Table Hash Nat) (output : Output) : Option (Table Hash Nat) :=
  let sum := balanceIn balances output.owner + output.value.toNat
  if sum < coinBound then some (balances.insert output.owner sum) else none

/-- The balances after a transaction: first the debits, if the mode has any, then the payments one
by one. -/
def settle? (b : Book) (consumed : List OutPoint) (outputs : List Output) :
    Option (Table Hash Nat) :=
  let debited := match b.mode with
    | .runningCredit => b.balances
    | .strictUtxo => (consumed.filterMap b.outputs.find?).foldl debit b.balances
  outputs.foldlM credit? debited

/-- Marks a consumed output. -/
def markSpent (outputs : Table OutPoint OutputRecord) (o : OutPoint) :
    Table OutPoint OutputRecord :=
  match outputs.find? o with
  | some record => outputs.insert o { record with spent := true }
  | none => outputs

/-- Notes that a transaction pays an owner, once for each transaction. -/
def noteOwner (byOwner : Table Hash (List Hash)) (id owner : Hash) : Table Hash (List Hash) :=
  let ids := (byOwner.find? owner).getD []
  if ids.getLast?.map Hash.bytes = some id.bytes then byOwner
  else byOwner.insert owner (ids ++ [id])

def outPointAt (id : Hash) (place : Nat) : OutPoint := ⟨id, Int64.ofNat place⟩

def recordOutput (id : Hash) (outputs : Table OutPoint OutputRecord) (entry : Output × Nat) :
    Table OutPoint OutputRecord :=
  outputs.insert (outPointAt id entry.2) ⟨entry.1.owner, entry.1.value, false⟩

/-- The book with an accepted transaction, given what it consumes and the settled balances. -/
def append (b : Book) (tx : Transaction) (consumed : List OutPoint) (balances : Table Hash Nat) :
    Book :=
  let marked := match b.mode with
    | .runningCredit => b.outputs
    | .strictUtxo => consumed.foldl markSpent b.outputs
  { b with
    log := b.log ++ [tx]
    positions := b.positions.insert tx.id b.log.length
    byOwner := tx.body.outputs.foldl (fun t o => noteOwner t tx.id o.owner) b.byOwner
    balances := balances
    outputs := tx.body.outputs.zipIdx.foldl (recordOutput tx.id) marked }

def apply (b : Book) (tx : Transaction) : Except CashError (Book × Outcome) :=
  if (b.positions.find? tx.id).isSome then .ok (b, .alreadyApplied)
  else match validate tx b.outputs.find? b.mode with
    | .error e => .error e
    | .ok accepted =>
      match b.settle? accepted.consumed tx.body.outputs with
      | none => .error .overflow
      | some balances => .ok (b.append tx accepted.consumed balances, .applied)

/-- The book that results from applying transactions in order, if none is refused. -/
def applyAll (b : Book) : List Transaction → Except CashError Book
  | [] => .ok b
  | tx :: rest =>
    match b.apply tx with
    | .error e => .error e
    | .ok (b, _) => b.applyAll rest

def replay (mode : Accounting) (log : List Transaction) : Except CashError Book :=
  (empty mode).applyAll log

def transaction? (b : Book) (id : Hash) : Option Transaction :=
  (b.positions.find? id).bind fun place => b.log[place]?

/-- The transactions that pay an owner, in the order of the log. -/
def transactionsOf (b : Book) (owner : Hash) : List Transaction :=
  ((b.byOwner.find? owner).getD []).filterMap b.transaction?

/-- The outputs of one transaction that an owner may spend. -/
def spendableIn (b : Book) (owner : Hash) (tx : Transaction) : List Spendable :=
  tx.body.outputs.zipIdx.filterMap fun (output, place) =>
    let o := outPointAt tx.id place
    let spent := (b.outputs.find? o).any OutputRecord.spent
    if output.owner.bytes ≠ owner.bytes then none
    else if b.mode = .strictUtxo ∧ spent then none
    else some ⟨o, owner, output.value⟩

/-- The outputs that an owner may spend, in the order of the log. Under running credit these are
all outputs ever paid to the owner. -/
def spendable (b : Book) (owner : Hash) : List Spendable :=
  (b.transactionsOf owner).flatMap (b.spendableIn owner)

/-- Two books with the same balances and the same owner index, up to the spelling of hashes. -/
def sameIndex (b c : Book) : Bool :=
  let balances := fun (b : Book) => b.balances.entries.map fun e => (e.1.bytes, e.2)
  let byOwner := fun (b : Book) => b.byOwner.entries.map fun e => (e.1.bytes, e.2.map Hash.bytes)
  balances b == balances c && byOwner b == byOwner c

end Book

/-! ### The books of all organizations -/

/-- The books by organization, all kept in one mode. -/
structure Ledger where
  mode : Accounting
  books : Table String Book

namespace Ledger

def empty (mode : Accounting) : Ledger := ⟨mode, .empty⟩

/-- The book of an organization; the empty one if nothing was accepted yet. -/
def book (l : Ledger) (organization : String) : Book :=
  (l.books.find? organization).getD (.empty l.mode)

def apply (l : Ledger) (organization : String) (tx : Transaction) :
    Except CashError (Ledger × Outcome) :=
  match (l.book organization).apply tx with
  | .error e => .error e
  | .ok (b, outcome) => .ok (⟨l.mode, l.books.insert organization b⟩, outcome)

def balance (l : Ledger) (organization : String) (owner : Hash) : Nat :=
  (l.book organization).balance owner

def log (l : Ledger) (organization : String) : List Transaction := (l.book organization).log

def transaction? (l : Ledger) (organization : String) (id : Hash) : Option Transaction :=
  (l.book organization).transaction? id

def transactionsOf (l : Ledger) (organization : String) (owner : Hash) : List Transaction :=
  (l.book organization).transactionsOf owner

def spendable (l : Ledger) (organization : String) (owner : Hash) : List Spendable :=
  (l.book organization).spendable owner

def organizations (l : Ledger) : List String := l.books.keys

/-- Whether the indices of an organization are those that its log rebuilds. -/
def verifyIndices (l : Ledger) (organization : String) : Except CashError Bool :=
  match l.books.find? organization with
  | none => .ok true
  | some b => (Book.replay b.mode b.log).map fun rebuilt => rebuilt.sameIndex b

end Ledger

end CoinLedger
