import CoinLedger.Proofs.Ledger.History
import CoinLedger.Proofs.Ledger.Indices
import CoinLedger.Proofs.Table

/-!
Applying a transaction by writing to the book, one index after the other. Here a failure does not take
back what was written before it, so that it has to come before the first write. The settled balances are
therefore gathered apart, for the owners concerned. Main statement: step by step comes to the same as
all at once, and what fails has written nothing.
-/

namespace CoinLedger

/-- How a step in place ends that writes all or nothing. -/
def allOrNothing {ε σ α : Type} (s : σ) : Except ε (σ × α) → EStateM.Result ε σ α
  | .ok (next, a) => .ok a next
  | .error e => .error e s

section AllOrNothing

variable {ε σ α β : Type} {s last : σ} {x : Except ε (σ × α)}

theorem allOrNothing_eq_ok_iff {a : α} : allOrNothing s x = .ok a last ↔ x = .ok (last, a) := by
  cases x with
  | error e => exact ⟨nofun, nofun⟩
  | ok result =>
    constructor
    · rintro ⟨⟩
      rfl
    · rintro ⟨⟩
      rfl

theorem allOrNothing_eq_error_iff {e : ε} :
    allOrNothing s x = .error e last ↔ x = .error e ∧ last = s := by
  cases x with
  | error e' =>
    constructor
    · rintro ⟨⟩
      exact ⟨rfl, rfl⟩
    · rintro ⟨⟨⟩, rfl⟩
      rfl
  | ok result => exact ⟨nofun, fun h => nomatch h.1⟩

/-- What fails without the state leaves the state. -/
theorem run_ofExcept_bind (read : Except ε α) (f : α → EStateM ε σ β) (s : σ) :
    (MonadExcept.ofExcept read >>= f : EStateM ε σ β) s = match read with
      | .ok a => f a s
      | .error e => .error e s := by
  cases read <;> rfl

theorem run_bind_of_ok {x : EStateM ε σ α} {a : α} (run : x s = .ok a last)
    (f : α → EStateM ε σ β) : (x >>= f) s = f a last := by
  simp only [bind, EStateM.bind, run]

theorem run_bind_of_error {x : EStateM ε σ α} {e : ε} (run : x s = .error e last)
    (f : α → EStateM ε σ β) : (x >>= f) s = .error e last := by
  simp only [bind, EStateM.bind, run]

end AllOrNothing

namespace Book

/-- Work on a book in place; what was written before a failure stays written. -/
abbrev InPlace := EStateM CashError Book

namespace InPlace

section Steps

/-- The balance of an owner as settled so far, or else as it stands in the book. -/
def balance (settled : Table Hash Nat) (owner : Hash) : InPlace Nat := do
  let b ← get
  return (settled.find? owner).getD (b.balance owner)

def settleDebit (settled : Table Hash Nat) (o : OutPoint) : InPlace (Table Hash Nat) := do
  match (← get).outputs.find? o with
  | none => return settled
  | some record =>
    let balance ← balance settled record.owner
    return settled.insert record.owner (balance - record.value.toNat)

def settleCredit (settled : Table Hash Nat) (output : Output) : InPlace (Table Hash Nat) := do
  let balance ← balance settled output.owner
  if balance + output.value.toNat < coinBound then
    return settled.insert output.owner (balance + output.value.toNat)
  else throw .overflow

def settleDebits (mode : Accounting) (consumed : List OutPoint) : InPlace (Table Hash Nat) :=
  match mode with
  | .runningCredit => return .empty
  | .strictUtxo => consumed.foldlM settleDebit .empty

/-- The new balances of the owners concerned. Nothing is written yet. -/
def settle (consumed : List OutPoint) (outputs : List Output) : InPlace (Table Hash Nat) := do
  let debited ← settleDebits (← get).mode consumed
  outputs.foldlM settleCredit debited

def writeSpent (o : OutPoint) : InPlace PUnit :=
  modify fun b => { b with outputs := markSpent b.outputs o }

def writeMarks (mode : Accounting) (consumed : List OutPoint) : InPlace PUnit :=
  match mode with
  | .runningCredit => return ⟨⟩
  | .strictUtxo => consumed.forM writeSpent

def writeBalances (settled : Table Hash Nat) : InPlace PUnit :=
  modify fun b => { b with balances := b.balances.extend settled }

def writeOutput (id : Hash) (entry : Output × Nat) : InPlace PUnit := do
  modify fun b => { b with byOwner := noteOwner b.byOwner id entry.1.owner }
  modify fun b => { b with outputs := recordOutput id b.outputs entry }

def writeLog (tx : Transaction) : InPlace PUnit := do
  modify fun b => { b with positions := b.positions.insert tx.id b.log.length }
  modify fun b => { b with log := b.log ++ [tx] }

def commit (tx : Transaction) (consumed : List OutPoint) (settled : Table Hash Nat) :
    InPlace PUnit := do
  writeMarks (← get).mode consumed
  writeBalances settled
  tx.body.outputs.zipIdx.forM (writeOutput tx.id)
  writeLog tx

/-- Checks, settles apart, and then writes to one index after the other. -/
def apply (tx : Transaction) : InPlace Outcome := do
  let b ← get
  if (b.positions.find? tx.id).isSome then return .alreadyApplied
  let accepted ← MonadExcept.ofExcept (validate tx b.outputs.find? b.mode)
  let settled ← settle accepted.consumed tx.body.outputs
  commit tx accepted.consumed settled
  return .applied

end Steps

section Settling

variable (b : Book) (settled : Table Hash Nat)

theorem run_balance (owner : Hash) :
    balance settled owner b = .ok (balanceIn (b.balances.extend settled) owner) b := by
  have here : balance settled owner b = .ok ((settled.find? owner).getD (b.balance owner)) b := rfl
  rw [here, balanceIn, Table.find?_extend]
  cases settled.find? owner <;> rfl

/-- A debit of the balances gathered apart is the debit of all balances. -/
theorem run_settleDebit (o : OutPoint) :
    ∃ next, settleDebit settled o b = .ok next b ∧
      b.balances.extend next = match b.outputs.find? o with
        | none => b.balances.extend settled
        | some record => debit (b.balances.extend settled) record := by
  have run : settleDebit settled o b = (match b.outputs.find? o with
      | none => pure settled
      | some record => do
        let balance ← balance settled record.owner
        return settled.insert record.owner (balance - record.value.toNat) : InPlace _) b := rfl
  rw [run]
  cases b.outputs.find? o with
  | none => exact ⟨settled, rfl, rfl⟩
  | some record =>
    exact ⟨_, run_bind_of_ok (run_balance b settled record.owner) _, Table.extend_insert _ _ _ _⟩

theorem run_settleDebits (consumed : List OutPoint) :
    ∃ next, consumed.foldlM settleDebit settled b = .ok next b ∧
      b.balances.extend next =
        (consumed.filterMap b.outputs.find?).foldl debit (b.balances.extend settled) := by
  induction consumed generalizing settled with
  | nil => exact ⟨settled, rfl, rfl⟩
  | cons o rest ih =>
    obtain ⟨mid, first, debited⟩ := run_settleDebit b settled o
    obtain ⟨next, later, sum⟩ := ih mid
    refine ⟨next, ?_, ?_⟩
    · rw [List.foldlM_cons, run_bind_of_ok first]
      exact later
    · rw [sum, debited]
      cases known : b.outputs.find? o <;> simp [known]

theorem run_settleCredit (output : Output) :
    match credit? (b.balances.extend settled) output with
    | none => settleCredit settled output b = .error .overflow b
    | some balances =>
      ∃ next, settleCredit settled output b = .ok next b ∧ b.balances.extend next = balances := by
  rw [settleCredit, run_bind_of_ok (run_balance b settled output.owner), credit?]
  by_cases fits : balanceIn (b.balances.extend settled) output.owner + output.value.toNat < coinBound
  · simp only [fits, if_true]
    exact ⟨_, rfl, Table.extend_insert _ _ _ _⟩
  · simp only [fits, if_false]
    rfl

theorem run_settleCredits (outputs : List Output) :
    match outputs.foldlM credit? (b.balances.extend settled) with
    | none => outputs.foldlM settleCredit settled b = .error .overflow b
    | some balances =>
      ∃ next, outputs.foldlM settleCredit settled b = .ok next b ∧
        b.balances.extend next = balances := by
  induction outputs generalizing settled with
  | nil => exact ⟨settled, rfl, rfl⟩
  | cons output rest ih =>
    have first := run_settleCredit b settled output
    rw [List.foldlM_cons, List.foldlM_cons]
    cases credited : credit? (b.balances.extend settled) output with
    | none =>
      rw [credited] at first
      exact run_bind_of_error first _
    | some balances =>
      rw [credited] at first
      obtain ⟨mid, run, rfl⟩ := first
      rw [run_bind_of_ok run]
      exact ih mid

theorem run_settle (consumed : List OutPoint) (outputs : List Output) :
    match b.settle? consumed outputs with
    | none => settle consumed outputs b = .error .overflow b
    | some balances =>
      ∃ next, settle consumed outputs b = .ok next b ∧ b.balances.extend next = balances := by
  have debits : ∃ debited, settleDebits b.mode consumed b = .ok debited b ∧
      b.balances.extend debited = b.debited consumed := by
    unfold debited settleDebits
    cases b.mode with
    | runningCredit => exact ⟨.empty, rfl, rfl⟩
    | strictUtxo => exact run_settleDebits b .empty consumed
  obtain ⟨debited, run, same⟩ := debits
  have all : settle consumed outputs b =
      (settleDebits b.mode consumed >>= fun debited => outputs.foldlM settleCredit debited) b := rfl
  rw [settle?_eq, ← same, all, run_bind_of_ok run]
  exact run_settleCredits b debited outputs

end Settling

section Writing

variable (b : Book)

theorem run_writeSpent (consumed : List OutPoint) :
    consumed.forM writeSpent b =
      .ok ⟨⟩ { b with outputs := consumed.foldl markSpent b.outputs } := by
  induction consumed generalizing b with
  | nil => rfl
  | cons o rest ih => exact ih { b with outputs := markSpent b.outputs o }

theorem run_writeBalances (settled : Table Hash Nat) :
    writeBalances settled b = .ok ⟨⟩ { b with balances := b.balances.extend settled } := rfl

theorem run_writeOutputs (id : Hash) (entries : List (Output × Nat)) :
    entries.forM (writeOutput id) b =
      .ok ⟨⟩ { b with
        byOwner := (entries.map Prod.fst).foldl (fun t o => noteOwner t id o.owner) b.byOwner
        outputs := entries.foldl (recordOutput id) b.outputs } := by
  induction entries generalizing b with
  | nil => rfl
  | cons entry rest ih =>
    exact ih { b with
      byOwner := noteOwner b.byOwner id entry.1.owner
      outputs := recordOutput id b.outputs entry }

theorem run_writeMarks (consumed : List OutPoint) :
    writeMarks b.mode consumed b = .ok ⟨⟩ { b with outputs := match b.mode with
      | .runningCredit => b.outputs
      | .strictUtxo => consumed.foldl markSpent b.outputs } := by
  obtain ⟨mode, log, positions, byOwner, balances, outputs⟩ := b
  cases mode with
  | runningCredit => rfl
  | strictUtxo => exact run_writeSpent _ consumed

theorem run_commit (tx : Transaction) (consumed : List OutPoint) (settled : Table Hash Nat) :
    commit tx consumed settled b =
      .ok ⟨⟩ (b.append tx consumed (b.balances.extend settled)) := by
  have outputs : tx.body.outputs.zipIdx.map Prod.fst = tx.body.outputs :=
    List.zipIdx_map_fst 0 _
  have all : commit tx consumed settled b = (do
      writeMarks b.mode consumed
      writeBalances settled
      tx.body.outputs.zipIdx.forM (writeOutput tx.id)
      writeLog tx : InPlace PUnit) b := rfl
  rw [all, run_bind_of_ok (run_writeMarks b consumed), run_bind_of_ok (run_writeBalances _ settled),
    run_bind_of_ok (run_writeOutputs _ tx.id _), outputs]
  rfl

/-- Step by step a transaction comes to the same answer and the same book as at once, and an error
leaves the book as it was. -/
theorem run_apply (tx : Transaction) :
    apply tx b = allOrNothing b (b.apply tx) := by
  unfold Book.apply
  have all : apply tx b = (if (b.positions.find? tx.id).isSome = true then pure Outcome.alreadyApplied
      else do
        let accepted ← MonadExcept.ofExcept (validate tx b.outputs.find? b.mode)
        let settled ← settle accepted.consumed tx.body.outputs
        commit tx accepted.consumed settled
        return Outcome.applied : InPlace Outcome) b := rfl
  rw [all]
  split
  · rfl
  · rw [run_ofExcept_bind]
    cases validate tx b.outputs.find? b.mode with
    | error e => rfl
    | ok accepted =>
      simp only
      have settled := run_settle b accepted.consumed tx.body.outputs
      cases sums : b.settle? accepted.consumed tx.body.outputs with
      | none =>
        rw [sums] at settled
        exact (run_bind_of_error settled _ : _ = EStateM.Result.error CashError.overflow b)
      | some balances =>
        rw [sums] at settled
        obtain ⟨next, run, rfl⟩ := settled
        rw [run_bind_of_ok run, run_bind_of_ok (run_commit b tx accepted.consumed next)]
        rfl

end Writing

end InPlace

end Book

namespace Ledger

/-- Work on the books of all organizations in place. -/
abbrev InPlace := EStateM CashError Ledger

namespace InPlace

def writeBook (organization : String) (b : Book) : InPlace PUnit :=
  modify fun l => { l with books := l.books.insert organization b }

/-- A known book is worked on where it is. A new one is put among the books only when it has taken its
first transaction. -/
def apply (organization : String) (tx : Transaction) : InPlace Outcome := do
  let l ← get
  match l.books.find? organization with
  | some b =>
    match Book.InPlace.apply tx b with
    | .ok outcome b => do
      writeBook organization b
      return outcome
    | .error e b => do
      writeBook organization b
      throw e
  | none =>
    match Book.InPlace.apply tx (.empty l.mode) with
    | .ok outcome b => do
      writeBook organization b
      return outcome
    | .error e _ => throw e

theorem run_apply (l : Ledger) (organization : String) (tx : Transaction) :
    apply organization tx l = allOrNothing l (l.apply organization tx) := by
  have start : (get : InPlace Ledger) l = .ok l l := rfl
  rw [apply, run_bind_of_ok start, Ledger.apply]
  cases found : l.books.find? organization with
  | some b =>
    have known : l.book organization = b := by
      rw [Ledger.book, found]
      rfl
    simp only [Book.InPlace.run_apply, known]
    cases b.apply tx with
    | ok result => rfl
    | error e =>
      -- the book is put back as it was
      have same : (⟨l.mode, l.books.insert organization b⟩ : Ledger) = l := by
        rw [Table.insert_of_find? found]
      change EStateM.Result.error e (⟨l.mode, l.books.insert organization b⟩ : Ledger) = _
      rw [same]
      rfl
  | none =>
    have new : l.book organization = .empty l.mode := by
      rw [Ledger.book, found]
      rfl
    simp only [Book.InPlace.run_apply, new]
    cases (Book.empty l.mode).apply tx <;> rfl

end InPlace

end Ledger

end CoinLedger
