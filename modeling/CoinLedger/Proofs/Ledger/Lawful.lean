import CoinLedger.Proofs.Ledger.Worth
import CoinLedger.Proofs.Transaction.Schema
import CoinLedger.Proofs.Validation

/-!
Logs in which every transaction was valid after the ones before it. Nothing here speaks of a book or
of its indices. Main statements: in such a log every claim is a new one, and the worth of what is
not used up changes with a transaction as its inputs and outputs say.
-/

namespace CoinLedger.Log

open Validation (SpendSound)

variable {mode : Accounting} {log : List Transaction} {tx : Transaction}

/-- A transaction that passes every check after a log. -/
structure Valid (mode : Accounting) (log : List Transaction) (tx : Transaction) : Prop where
  schema : tx.body.checkSchema = .ok ()
  fresh : ∀ t ∈ log, t.id.bytes ≠ tx.id.bytes
  bounded : tx.body.outputSum < coinBound
  spend : tx.body.isCoinbase = false → SpendSound (recordAt? mode log) mode tx.body

/-- Every transaction was valid when it came, and kept what is owed to each owner in bounds. -/
inductive Lawful (mode : Accounting) : List Transaction → Prop
  | nil : Lawful mode []
  | snoc {log : List Transaction} {tx : Transaction} : Lawful mode log → Valid mode log tx →
      (∀ owner, owed mode (log ++ [tx]) owner < coinBound) → Lawful mode (log ++ [tx])

theorem lawful_snoc_iff :
    Lawful mode (log ++ [tx]) ↔
      Lawful mode log ∧ Valid mode log tx ∧ ∀ owner, owed mode (log ++ [tx]) owner < coinBound := by
  constructor
  · intro h
    generalize whole : log ++ [tx] = l at h
    cases h with
    | nil => simp at whole
    | snoc before valid fits =>
      obtain ⟨same, last⟩ := List.append_inj' whole rfl
      cases same
      cases last
      exact ⟨before, valid, fits⟩
  · rintro ⟨before, valid, fits⟩
    exact .snoc before valid fits

theorem Lawful.of_prefix {whole : List Transaction} (h : Lawful mode whole) (part : log <+: whole) :
    Lawful mode log := by
  induction h with
  | nil => rw [List.prefix_nil.1 part]; exact .nil
  | snoc before valid fits ih =>
    rcases List.prefix_concat_iff.1 part with rfl | part
    · exact .snoc before valid fits
    · exact ih part

theorem Lawful.valid_at {after : List Transaction} (h : Lawful mode (log ++ tx :: after)) :
    Valid mode log tx := by
  rw [List.append_cons] at h
  exact (lawful_snoc_iff.1 (h.of_prefix (List.prefix_append _ _))).2.1

theorem Lawful.valid_of_mem (h : Lawful mode log) (logged : tx ∈ log) :
    ∃ before, Valid mode before tx := by
  obtain ⟨before, later, rfl⟩ := List.append_of_mem logged
  exact ⟨before, h.valid_at⟩

theorem Lawful.distinct (h : Lawful mode log) : Distinct log := by
  induction h with
  | nil => exact .nil
  | snoc _ valid _ ih => exact distinct_snoc_iff.2 ⟨ih, valid.fresh⟩

theorem Lawful.owed_lt (h : Lawful mode log) (owner : Hash) : owed mode log owner < coinBound := by
  cases h with
  | nil => exact (by decide : 0 < coinBound)
  | snoc _ _ fits => exact fits owner

theorem index_nonneg_of_mem_payments {e : OutPoint × Output} (h : e ∈ payments log) :
    0 ≤ e.1.index := by
  obtain ⟨t, _, member⟩ := List.mem_flatMap.1 h
  obtain ⟨place, same, found⟩ := Transaction.mem_payments_iff.1 member
  rw [same]
  exact Int64.zero_le_ofNat_of_lt (Transaction.place_lt found)

theorem outputAt?_of_recordAt? {o : OutPoint} {record : OutputRecord}
    (h : recordAt? mode log o = some record) :
    ∃ output, outputAt? log o = some output ∧
      record = ⟨output.owner, output.value, decide (Consumed mode log o)⟩ := by
  obtain ⟨output, found, same⟩ := Option.map_eq_some_iff.1 h
  exact ⟨output, found, same.symm⟩

theorem Valid.named (h : Valid mode log tx) (spend : tx.body.isCoinbase = false) {o : OutPoint}
    (member : o ∈ tx.body.outpoints) : ∃ output, outputAt? log o = some output := by
  obtain ⟨i, hi, rfl⟩ := List.mem_map.1 member
  obtain ⟨record, known, _⟩ := (h.spend spend).inputs.opens i hi
  obtain ⟨output, found, _⟩ := outputAt?_of_recordAt? known
  exact ⟨output, found⟩

theorem valueOf_recordAt? (mode : Accounting) (log : List Transaction) (b : Body) :
    Validation.valueOf (recordAt? mode log) b.outpoints = inputSum log b := by
  have value : ∀ o, Validation.valueAt (recordAt? mode log) o =
      ((outputAt? log o).map fun output => output.value.toNat).getD 0 := by
    intro o
    rw [Validation.valueAt, recordAt?, Option.map_map]
    rfl
  rw [Validation.valueOf, funext value]
  rfl

theorem Valid.outputSum_le (h : Valid .strictUtxo log tx) (spend : tx.body.isCoinbase = false) :
    tx.body.outputSum ≤ inputSum log tx.body := by
  rw [← valueOf_recordAt? .strictUtxo]
  exact (h.spend spend).balanced rfl

/-- A claim names an output of the log or, if it makes money, no place at all. -/
theorem Lawful.claim_cases (h : Lawful mode log) {o : OutPoint} (member : o ∈ claims log) :
    o.index < 0 ∨ ∃ output, outputAt? log o = some output := by
  induction h with
  | nil => exact nomatch member
  | @snoc log tx _ valid _ ih =>
    rw [claims_append, claims_singleton] at member
    rcases List.mem_append.1 member with member | member
    · refine (ih member).imp id fun ⟨output, found⟩ => ?_
      exact ⟨output, outputAt?_append_of_some found _⟩
    · cases coinbase : tx.body.isCoinbase with
      | true => exact .inl (Body.index_neg_of_coinbase valid.schema coinbase member)
      | false =>
        obtain ⟨output, found⟩ := valid.named coinbase member
        exact .inr ⟨output, outputAt?_append_of_some found _⟩

theorem Valid.claimsFresh (h : Valid .strictUtxo log tx) (distinct : Distinct log) :
    ClaimsFresh log tx := by
  cases coinbase : tx.body.isCoinbase with
  | true =>
    -- its one claim names no place, and so no output
    refine ⟨distinct, ?_, ?_⟩
    · obtain ⟨o, inputs, _⟩ := (Body.isCoinbase_iff h.schema).1 coinbase
      rw [Body.outpoints, inputs]
      exact List.pairwise_singleton _ _
    · intro o member e he same
      have negative := Body.index_neg_of_coinbase h.schema coinbase member
      rw [same.2] at negative
      exact absurd (index_nonneg_of_mem_payments he) (Int64.not_le.2 negative)
  | false =>
    have spend := h.spend coinbase
    refine ⟨distinct, spend.inputs.apart rfl, ?_⟩
    intro o member e he same claimed
    obtain ⟨i, hi, rfl⟩ := List.mem_map.1 member
    obtain ⟨record, known, _⟩ := spend.inputs.opens i hi
    have unspent := spend.inputs.unspent rfl i hi record known
    obtain ⟨output, _, rfl⟩ := outputAt?_of_recordAt? known
    exact of_decide_eq_false unspent ⟨rfl, claimed.congr same.symm⟩

theorem Valid.unpaid (h : Valid mode log tx) (lawful : Lawful mode log) {e : OutPoint × Output}
    (member : e ∈ tx.payments) : ¬Claimed (log ++ [tx]) e.1 := by
  have place : 0 ≤ e.1.index := by
    have logged : e ∈ payments [tx] := by
      rw [payments_singleton]
      exact member
    exact index_nonneg_of_mem_payments logged
  -- whatever names an output of the log bears the id of a logged transaction
  have unnamed : ∀ p output, p.Same e.1 → outputAt? log p ≠ some output := by
    intro p output same found
    obtain ⟨t, logged, names⟩ := names_of_outputAt? found
    refine h.fresh t logged ?_
    rw [← names.1, same.1, Transaction.hash_of_mem_payments member]
  rw [claimed_snoc_iff]
  rintro (⟨p, claim, same⟩ | ⟨p, claim, same⟩)
  · rcases lawful.claim_cases claim with negative | ⟨output, found⟩
    · rw [same.2] at negative
      exact Int64.not_le.2 negative place
    · exact unnamed p output same found
  · cases coinbase : tx.body.isCoinbase with
    | true =>
      have negative := Body.index_neg_of_coinbase h.schema coinbase claim
      rw [same.2] at negative
      exact Int64.not_le.2 negative place
    | false =>
      obtain ⟨output, found⟩ := h.named coinbase claim
      exact unnamed p output same found

/-- The worth that goes out with a transaction. -/
def usedWorth (mode : Accounting) (log : List Transaction) (b : Body) (worth : Output → Nat) :
    Nat :=
  match mode with
  | .runningCredit => 0
  | .strictUtxo => claimedWorth log b worth

theorem Valid.usedWorth_le (h : Valid mode log tx) (distinct : Distinct log)
    (worth : Output → Nat) : usedWorth mode log tx.body worth ≤ openWorth mode log worth := by
  cases mode with
  | runningCredit => exact Nat.zero_le _
  | strictUtxo => exact claimedWorth_le (h.claimsFresh distinct) worth

/-- Outputs come in; what the inputs use up goes out. -/
theorem Valid.openWorth_snoc (h : Valid mode log tx) (lawful : Lawful mode log)
    (worth : Output → Nat) :
    openWorth mode (log ++ [tx]) worth + usedWorth mode log tx.body worth =
      openWorth mode log worth + total (tx.body.outputs.map worth) := by
  cases mode with
  | runningCredit => exact openWorth_snoc_runningCredit log tx worth
  | strictUtxo =>
    exact openWorth_snoc_strictUtxo (h.claimsFresh lawful.distinct)
      (fun _ member => h.unpaid lawful member) worth

end CoinLedger.Log
