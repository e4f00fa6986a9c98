import CoinLedger.Proofs.Ledger.History
import CoinLedger.Proofs.Ledger.Indices
import CoinLedger.Proofs.Ledger.Lawful

/-!
The invariant of books: every index says of the log what the log itself says, and the log is lawful.
Main statements: which transactions a faithful book accepts, in terms of its log alone, that a book
stays faithful through every history, and what applying a valid transaction makes of a ledger.
-/

namespace CoinLedger

open Validation (consumedBy valueOf)

def Transaction.paysTo (owner : Hash) (tx : Transaction) : Bool :=
  tx.body.outputs.any fun o => o.owner.bytes = owner.bytes

namespace Log

variable {mode : Accounting} {log : List Transaction} {tx : Transaction}

theorem outputAt?_of_index_neg {o : OutPoint} (negative : o.index < 0) : outputAt? log o = none := by
  apply outputAt?_eq_none_iff.2
  intro e member same
  rw [same.2] at negative
  exact Int64.not_le.2 negative (index_nonneg_of_mem_payments member)

/-- Inputs that make money use nothing up. -/
theorem Valid.claimedWorth_of_coinbase (h : Valid mode log tx) (coinbase : tx.body.isCoinbase = true)
    (worth : Output → Nat) : claimedWorth log tx.body worth = 0 := by
  apply total_map_eq_zero
  intro o member
  rw [outputAt?_of_index_neg (Body.index_neg_of_coinbase h.schema coinbase member)]
  rfl

/-- All that such a transaction does is to pay out. -/
theorem Valid.openWorth_snoc_of_coinbase (h : Valid mode log tx) (lawful : Lawful mode log)
    (coinbase : tx.body.isCoinbase = true) (worth : Output → Nat) :
    openWorth mode (log ++ [tx]) worth =
      openWorth mode log worth + total (tx.body.outputs.map worth) := by
  have change := h.openWorth_snoc lawful worth
  have unused : usedWorth mode log tx.body worth = 0 := by
    cases mode with
    | runningCredit => rfl
    | strictUtxo => exact h.claimedWorth_of_coinbase coinbase worth
  rwa [unused, Nat.add_zero] at change

/-- So the consumed outpoints stand for all inputs. -/
theorem Valid.consumedWorth_eq (h : Valid mode log tx) (owner : Hash) :
    Book.consumedWorth (recordAt? mode log) owner (consumedBy tx.body) =
      claimedWorth log tx.body (Output.worthTo owner) := by
  have worth : ∀ o, ((recordAt? mode log o).map (Book.recordWorth owner)).getD 0 =
      ((outputAt? log o).map (Output.worthTo owner)).getD 0 := by
    intro o
    rw [recordAt?, Option.map_map]
    rfl
  rw [Book.consumedWorth, funext worth, claimedWorth, consumedBy]
  cases coinbase : tx.body.isCoinbase with
  | false => rfl
  | true => exact (h.claimedWorth_of_coinbase coinbase (Output.worthTo owner)).symm

theorem Valid.consumed_snoc_iff (h : Valid mode log tx) {o : OutPoint} {output : Output}
    (known : outputAt? log o = some output) :
    Consumed mode (log ++ [tx]) o ↔
      Consumed mode log o ∨ mode = .strictUtxo ∧ ∃ p ∈ consumedBy tx.body, p.Same o := by
  have claims : (∃ p ∈ tx.body.outpoints, p.Same o) ↔ ∃ p ∈ consumedBy tx.body, p.Same o := by
    unfold consumedBy
    cases coinbase : tx.body.isCoinbase with
    | false => rfl
    | true =>
      constructor
      · rintro ⟨p, member, same⟩
        have negative := Body.index_neg_of_coinbase h.schema coinbase member
        rw [← outputAt?_congr log same, outputAt?_of_index_neg negative] at known
        exact nomatch known
      · rintro ⟨p, member, _⟩
        exact nomatch member
  rw [Consumed, Consumed, claimed_snoc_iff, claims, and_or_left]

/-- The records after a transaction: its own outputs are new and open, and of the others those that
it consumes are marked. -/
theorem Valid.recordAt?_snoc (h : Valid mode log tx) (lawful : Lawful mode log) (o : OutPoint) :
    recordAt? mode (log ++ [tx]) o =
      ((outputAt? [tx] o).map fun output => ⟨output.owner, output.value, false⟩).or
        ((recordAt? mode log o).map fun r =>
          if mode = .strictUtxo ∧ ∃ p ∈ consumedBy tx.body, p.Same o then { r with spent := true }
          else r) := by
  unfold recordAt?
  rw [outputAt?_append]
  cases new : outputAt? [tx] o with
  | some output =>
    -- an output of its own: the log has none of that hash, and nothing claims it yet
    obtain ⟨e, member, same, rfl⟩ := mem_of_outputAt? new
    rw [payments_singleton] at member
    have old : outputAt? log o = none := by
      apply outputAt?_eq_none_iff.2
      intro f hf both
      obtain ⟨t, logged, hash⟩ := hash_mem_of_mem_payments hf
      refine h.fresh t logged ?_
      rw [← hash, ← Transaction.hash_of_mem_payments member, ← both.1, same.1]
    have free : ¬Consumed mode (log ++ [tx]) o := by
      rintro ⟨_, claimed⟩
      exact h.unpaid lawful member (claimed.congr same)
    simp [old, free]
  | none =>
    cases old : outputAt? log o with
    | none => rfl
    | some output =>
      have step := h.consumed_snoc_iff old
      by_cases before : Consumed mode log o
      · simp [step, before]
      · by_cases now : mode = .strictUtxo ∧ ∃ p ∈ consumedBy tx.body, p.Same o
        · simp only [Option.or_none, Option.none_or, Option.map_some, Option.map_none, if_pos now,
            decide_eq_true (step.2 (.inr now))]
        · have free : ¬Consumed mode (log ++ [tx]) o := fun used =>
            (step.1 used).elim before now
          simp only [Option.or_none, Option.none_or, Option.map_some, Option.map_none, if_neg now,
            decide_eq_false before, decide_eq_false free]

end Log

namespace Book

/-- The indices of a book say of its log what the log says. -/
structure Faithful (b : Book) : Prop where
  lawful : Log.Lawful b.mode b.log
  positions : ∀ id, b.positions.find? id = b.log.findIdx? fun tx => tx.id.bytes = id.bytes
  byOwner : ∀ owner, idsOf b.byOwner owner =
    (b.log.filter (Transaction.paysTo owner)).map Transaction.id
  balances : ∀ owner, b.balance owner = Log.owed b.mode b.log owner
  outputs : ∀ o, b.outputs.find? o = Log.recordAt? b.mode b.log o

theorem faithful_empty (mode : Accounting) : (empty mode).Faithful where
  lawful := .nil
  positions _ := rfl
  byOwner _ := rfl
  balances _ := rfl
  outputs _ := rfl

namespace Faithful

variable {b : Book} {tx : Transaction} {balances : Table Hash Nat}

theorem find?_outputs (h : b.Faithful) : b.outputs.find? = Log.recordAt? b.mode b.log :=
  funext h.outputs

theorem fresh_iff (h : b.Faithful) :
    b.positions.find? tx.id = none ↔ ∀ t ∈ b.log, t.id.bytes ≠ tx.id.bytes := by
  rw [h.positions, List.findIdx?_eq_none_iff]
  simp

/-- Whatever bears the id of a logged transaction counts as that transaction. -/
theorem apply_of_logged (h : b.Faithful) (logged : ∃ t ∈ b.log, t.id.bytes = tx.id.bytes) :
    b.apply tx = .ok (b, .alreadyApplied) := by
  have known : (b.positions.find? tx.id).isSome = true := by
    rw [Option.isSome_iff_ne_none]
    intro none
    obtain ⟨t, member, same⟩ := logged
    exact h.fresh_iff.1 none t member same
  rw [apply, if_pos known]

theorem valid_iff (h : b.Faithful) {a : Accepted} :
    b.positions.find? tx.id = none ∧ validate tx b.outputs.find? b.mode = .ok a ↔
      Log.Valid b.mode b.log tx ∧
        a = ⟨consumedBy tx.body, valueOf b.outputs.find? (consumedBy tx.body)⟩ := by
  rw [h.fresh_iff, Validation.validate_eq_ok_iff, h.find?_outputs]
  constructor
  · rintro ⟨fresh, schema, bounded, spend, same⟩
    exact ⟨⟨schema, fresh, bounded, spend⟩, same⟩
  · rintro ⟨⟨schema, fresh, bounded, spend⟩, same⟩
    exact ⟨fresh, schema, bounded, spend, same⟩

/-- The debits take exactly what is used up: every balance covers them. -/
theorem balanceIn_debited_add (h : b.Faithful) (valid : Log.Valid b.mode b.log tx) (owner : Hash) :
    balanceIn (b.debited (consumedBy tx.body)) owner +
      Log.usedWorth b.mode b.log tx.body (Output.worthTo owner) = b.balance owner := by
  have covered := valid.usedWorth_le h.lawful.distinct (Output.worthTo owner)
  have worth := valid.consumedWorth_eq owner
  rw [← h.find?_outputs] at worth
  rw [← Log.owed, ← h.balances owner] at covered
  rw [balanceIn_debited, worth]
  unfold Log.usedWorth at *
  cases mode : b.mode with
  | runningCredit => rfl
  | strictUtxo =>
    rw [mode] at covered
    exact Nat.sub_add_cancel covered

theorem owed_snoc (h : b.Faithful) (valid : Log.Valid b.mode b.log tx) (owner : Hash) :
    Log.owed b.mode (b.log ++ [tx]) owner =
      balanceIn (b.debited (consumedBy tx.body)) owner +
        total (tx.body.outputs.map (Output.worthTo owner)) := by
  have debited := h.balanceIn_debited_add valid owner
  have change := valid.openWorth_snoc h.lawful (Output.worthTo owner)
  rw [h.balances owner] at debited
  unfold Log.owed at *
  omega

theorem balanceIn_settled (h : b.Faithful) (valid : Log.Valid b.mode b.log tx)
    (settled : b.settle? (consumedBy tx.body) tx.body.outputs = some balances) (owner : Hash) :
    balanceIn balances owner = Log.owed b.mode (b.log ++ [tx]) owner := by
  rw [settle?_eq] at settled
  rw [h.owed_snoc valid, balanceIn_creditAll settled]

theorem balanceIn_debited_lt (h : b.Faithful) (valid : Log.Valid b.mode b.log tx) (owner : Hash) :
    balanceIn (b.debited (consumedBy tx.body)) owner < coinBound := by
  have bounded := h.lawful.owed_lt owner
  rw [← h.balances owner, ← h.balanceIn_debited_add valid owner] at bounded
  exact Nat.lt_of_le_of_lt (Nat.le_add_right _ _) bounded

/-- The balances settle exactly when the log still owes every owner less than the bound. -/
theorem settled_iff (h : b.Faithful) (valid : Log.Valid b.mode b.log tx) :
    (∃ balances, b.settle? (consumedBy tx.body) tx.body.outputs = some balances) ↔
      ∀ owner, Log.owed b.mode (b.log ++ [tx]) owner < coinBound := by
  rw [settle?_eq, creditAll_isSome_iff (h.balanceIn_debited_lt valid)]
  exact forall_congr' fun owner => by rw [h.owed_snoc valid owner]

theorem accepts_iff (h : b.Faithful) {a : Accepted} :
    b.Accepts tx a balances ↔
      Log.Valid b.mode b.log tx ∧
        a = ⟨consumedBy tx.body, valueOf b.outputs.find? (consumedBy tx.body)⟩ ∧
        b.settle? (consumedBy tx.body) tx.body.outputs = some balances := by
  constructor
  · rintro ⟨fresh, checked, settled⟩
    obtain ⟨valid, rfl⟩ := h.valid_iff.1 ⟨fresh, checked⟩
    exact ⟨valid, rfl, settled⟩
  · rintro ⟨valid, same, settled⟩
    obtain ⟨fresh, checked⟩ := h.valid_iff.2 ⟨valid, same⟩
    subst same
    exact ⟨fresh, checked, settled⟩

/-- An accepted transaction keeps the log lawful and every index faithful to it. -/
theorem append (h : b.Faithful) (valid : Log.Valid b.mode b.log tx)
    (settled : b.settle? (consumedBy tx.body) tx.body.outputs = some balances) :
    (b.append tx (consumedBy tx.body) balances).Faithful where
  lawful := .snoc h.lawful valid ((h.settled_iff valid).1 ⟨balances, settled⟩)
  positions id := by
    change (b.positions.insert tx.id b.log.length).find? id = _
    simp only [Table.find?_insert, h.positions, append_log, List.findIdx?_append, Hash.key_eq_iff]
    by_cases same : id.bytes = tx.id.bytes
    · have none : b.log.findIdx? (fun t => t.id.bytes = id.bytes) = none := by
        apply List.findIdx?_eq_none_iff.2
        intro t logged
        rw [same]
        exact decide_eq_false (valid.fresh t logged)
      rw [if_pos same, none]
      simp [same]
    · simp [same, eq_comm (a := tx.id.bytes)]
  byOwner owner := by
    have fresh : ∀ other, ∀ i ∈ idsOf b.byOwner other, i.bytes ≠ tx.id.bytes := by
      intro other i member
      rw [h.byOwner] at member
      obtain ⟨t, paid, rfl⟩ := List.mem_map.1 member
      exact valid.fresh t (List.mem_filter.1 paid).1
    change idsOf (tx.body.outputs.foldl (fun t o => noteOwner t tx.id o.owner) b.byOwner) owner = _
    rw [idsOf_noteAll fresh, h.byOwner, append_log, List.filter_append, List.map_append]
    rw [← Transaction.paysTo]
    cases pays : tx.paysTo owner <;> simp [pays]
  balances owner := h.balanceIn_settled valid settled owner
  outputs o := by
    change ((tx.body.outputs.zipIdx.foldl (recordOutput tx.id) _).find? o) = _
    rw [find?_recordOutputs, append_mode, append_log, valid.recordAt?_snoc h.lawful]
    congr 1
    cases mode : b.mode with
    | runningCredit => simp [h.outputs, mode]
    | strictUtxo => simp [find?_markAll, h.outputs, mode]

/-- A valid transaction is refused only if the balances do not settle. -/
theorem apply_of_valid (h : b.Faithful) (valid : Log.Valid b.mode b.log tx) :
    b.apply tx =
      match b.settle? (consumedBy tx.body) tx.body.outputs with
      | none => .error .overflow
      | some balances => .ok (b.append tx (consumedBy tx.body) balances, .applied) := by
  obtain ⟨fresh, checked⟩ := h.valid_iff.2 ⟨valid, rfl⟩
  cases settled : b.settle? (consumedBy tx.body) tx.body.outputs <;>
    simp [apply, fresh, checked, settled]

theorem apply_of_owed_lt (h : b.Faithful) (valid : Log.Valid b.mode b.log tx)
    (bounded : ∀ owner, Log.owed b.mode (b.log ++ [tx]) owner < coinBound) :
    ∃ next, b.apply tx = .ok (next, .applied) ∧ next.Faithful ∧ next.mode = b.mode ∧
      next.log = b.log ++ [tx] := by
  obtain ⟨balances, settled⟩ := (h.settled_iff valid).2 bounded
  refine ⟨_, ?_, h.append valid settled, rfl, rfl⟩
  rw [h.apply_of_valid valid, settled]

theorem apply_of_owed_ge (h : b.Faithful) (valid : Log.Valid b.mode b.log tx) {owner : Hash}
    (excess : coinBound ≤ Log.owed b.mode (b.log ++ [tx]) owner) : b.apply tx = .error .overflow := by
  rw [h.apply_of_valid valid]
  cases settled : b.settle? (consumedBy tx.body) tx.body.outputs with
  | some balances =>
    have bounded := (h.settled_iff valid).1 ⟨balances, settled⟩ owner
    exact absurd bounded (Nat.not_lt_of_le excess)
  | none => rfl

theorem append_of_accepts (h : b.Faithful) {a : Accepted} (accepts : b.Accepts tx a balances) :
    (b.append tx a.consumed balances).Faithful := by
  obtain ⟨valid, rfl, settled⟩ := h.accepts_iff.1 accepts
  exact h.append valid settled

theorem after (h : b.Faithful) (txs : List Transaction) : (b.after txs).Faithful :=
  after_induction (fun _ _ _ _ faithful accepts => faithful.append_of_accepts accepts) h txs

end Faithful

/-- Every book that starts empty is faithful after every history. -/
theorem faithful_after (mode : Accounting) (txs : List Transaction) :
    ((empty mode).after txs).Faithful := (faithful_empty mode).after txs

end Book

namespace Ledger

variable {mode : Accounting} {attempts : List (String × Transaction)} {l : Ledger}

theorem faithful_book (reached : (empty mode).after attempts = l) (organization : String) :
    (l.book organization).Faithful := by
  rw [← reached, book_after, book_empty]
  exact Book.faithful_after _ _

theorem mode_book (reached : (empty mode).after attempts = l) (organization : String) :
    (l.book organization).mode = mode := by
  rw [← reached, book_after, book_empty]
  exact Book.mode_after _ _

variable {organization : String} {tx : Transaction}

/-- One book has one transaction more, and no other book has changed. -/
structure Appends (l next : Ledger) (organization : String) (tx : Transaction) : Prop where
  log : next.log organization = l.log organization ++ [tx]
  mode : (next.book organization).mode = (l.book organization).mode
  faithful : (next.book organization).Faithful
  elsewhere : ∀ other, other ≠ organization → next.book other = l.book other

theorem Appends.balance {next : Ledger} (h : l.Appends next organization tx) (owner : Hash) :
    next.balance organization owner =
      Log.owed (l.book organization).mode (l.log organization ++ [tx]) owner := by
  rw [Ledger.balance, h.faithful.balances, h.mode, ← Ledger.log, h.log]

theorem apply_of_owed_lt (faithful : (l.book organization).Faithful)
    (valid : Log.Valid (l.book organization).mode (l.log organization) tx)
    (bounded : ∀ owner,
      Log.owed (l.book organization).mode (l.log organization ++ [tx]) owner < coinBound) :
    ∃ next, l.apply organization tx = .ok (next, .applied) ∧ l.Appends next organization tx := by
  obtain ⟨b, applied, kept, mode, log⟩ := faithful.apply_of_owed_lt valid bounded
  have here := book_insert_self l organization b
  refine ⟨_, apply_of_ok applied, ?_, ?_, ?_, ?_⟩
  · rw [Ledger.log, here]
    exact log
  · rw [here]
    exact mode
  · rw [here]
    exact kept
  · intro other apart
    rw [book_insert, if_neg apart]

theorem apply_of_owed_ge (faithful : (l.book organization).Faithful)
    (valid : Log.Valid (l.book organization).mode (l.log organization) tx) {owner : Hash}
    (excess : coinBound ≤
      Log.owed (l.book organization).mode (l.log organization ++ [tx]) owner) :
    l.apply organization tx = .error .overflow :=
  apply_of_error (faithful.apply_of_owed_ge valid excess)

theorem apply_of_logged (faithful : (l.book organization).Faithful)
    (logged : ∃ t ∈ l.log organization, t.id.bytes = tx.id.bytes) :
    ∃ next, l.apply organization tx = .ok (next, .alreadyApplied) ∧
      ∀ other, next.book other = l.book other := by
  refine ⟨_, apply_of_ok (faithful.apply_of_logged logged), ?_⟩
  intro other
  rw [book_insert]
  split
  · next here => rw [here]
  · rfl

end Ledger

end CoinLedger
