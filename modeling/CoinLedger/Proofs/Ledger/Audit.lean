import CoinLedger.Proofs.Ledger.Faithful

/-!
What anyone who reads a log can rely on, whatever was tried on the book before. Main statement: every
logged spend opens outputs that the log held before it, and under the strict mode no output is named
twice and no spend pays out more than it takes in.
-/

namespace CoinLedger

/-- The input spends an output of a log: it names the output, and its key owns the output and signed
the payload. -/
def Input.Spends (log : List Transaction) (payload : List UInt8) (i : Input) (output : Output) :
    Prop :=
  (∃ source ∈ log, i.outpoint.Names source output) ∧
    ∃ u, i.unlock = some u ∧ u.key.address.bytes = output.owner.bytes ∧
      u.key.verify payload u.signature = true

namespace Log

variable {mode : Accounting} {log : List Transaction} {tx : Transaction}

theorem Valid.spends_output (h : Valid mode log tx) (spend : tx.body.isCoinbase = false) {i : Input}
    (member : i ∈ tx.body.inputs) :
    ∃ output, i.Spends log tx.body.signingPayload output := by
  obtain ⟨record, known, u, shown, owns, signed⟩ := (h.spend spend).inputs.opens i member
  obtain ⟨output, found, rfl⟩ := outputAt?_of_recordAt? known
  exact ⟨output, names_of_outputAt? found, u, shown, owns, signed⟩

theorem not_claimed_iff {o : OutPoint} :
    ¬Claimed log o ↔ (claims log).countP (fun p => p.Same o) = 0 := by
  simp [Claimed, List.countP_eq_zero]

theorem Lawful.countP_claims_le (h : Lawful .strictUtxo log) {o : OutPoint} {output : Output}
    (known : outputAt? log o = some output) : (claims log).countP (fun p => p.Same o) ≤ 1 := by
  induction h with
  | nil => exact Nat.zero_le 1
  | @snoc log tx before valid _ ih =>
    cases old : outputAt? log o with
    | none =>
      -- the output is the transaction's own, which nothing claims yet
      rw [outputAt?_append, old, Option.none_or] at known
      obtain ⟨e, member, same, _⟩ := mem_of_outputAt? known
      rw [payments_singleton] at member
      have unclaimed : ¬Claimed (log ++ [tx]) o := fun claimed =>
        valid.unpaid before member (claimed.congr same)
      rw [not_claimed_iff.1 unclaimed]
      exact Nat.zero_le 1
    | some first =>
      cases Option.some.inj ((outputAt?_append_of_some old [tx]).symm.trans known)
      have fresh := valid.claimsFresh before.distinct
      obtain ⟨e, member, same, _⟩ := mem_of_outputAt? old
      rw [claims_append, claims_singleton, List.countP_append]
      by_cases claimed : Claimed log o
      · have none : tx.body.outpoints.countP (fun p => p.Same o) = 0 := by
          apply List.countP_eq_zero.2
          intro p hp named
          have named : p.Same o := of_decide_eq_true named
          exact fresh.unclaimed p hp e member (named.trans same) (claimed.congr same)
        rw [none, Nat.add_zero]
        exact ih old
      · rw [not_claimed_iff.1 claimed, Nat.zero_add]
        apply countP_le_one
        exact fresh.apart.imp fun apart both => apart (both.1.trans both.2.symm)

end Log

namespace Book

/-- The audit of a log: the form of all, the proofs of the spends, and under the strict mode no
output named twice, whatever the spelling, and no spend out of balance. -/
theorem log_audit (mode : Accounting) (txs : List Transaction) :
    (∀ tx ∈ ((empty mode).after txs).log, tx.body.checkSchema = .ok ()) ∧
    (∀ before tx later, ((empty mode).after txs).log = before ++ tx :: later →
      tx.body.isCoinbase = false → ∀ i ∈ tx.body.inputs,
        ∃ output, i.Spends before tx.body.signingPayload output) ∧
    (mode = .strictUtxo →
      (∀ o, (∃ source ∈ ((empty mode).after txs).log, ∃ output, o.Names source output) →
        (Log.claims ((empty mode).after txs).log).countP (fun p => p.Same o) ≤ 1) ∧
      ∀ before tx later, ((empty mode).after txs).log = before ++ tx :: later →
        tx.body.isCoinbase = false → tx.body.outputSum ≤ Log.inputSum before tx.body) := by
  have faithful := faithful_after mode txs
  have lawful := faithful.lawful
  rw [mode_after] at lawful
  have valid : ∀ before tx later, ((empty mode).after txs).log = before ++ tx :: later →
      Log.Valid mode before tx := by
    intro before tx later split
    rw [split] at lawful
    exact lawful.valid_at
  refine ⟨?_, ?_, ?_⟩
  · intro tx logged
    obtain ⟨before, later, split⟩ := List.append_of_mem logged
    exact (valid before tx later split).schema
  · intro before tx later split spend i member
    exact (valid before tx later split).spends_output spend member
  · rintro rfl
    refine ⟨?_, ?_⟩
    · rintro o ⟨source, logged, output, names⟩
      exact lawful.countP_claims_le
        (lawful.distinct.outputAt?_eq_some_iff.2 ⟨source, logged, names⟩)
    · intro before tx later split spend
      exact (valid before tx later split).outputSum_le spend

end Book

end CoinLedger
