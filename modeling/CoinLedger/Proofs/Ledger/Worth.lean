import CoinLedger.Proofs.Ledger.Reference

/-!
What one more transaction does to the worth of the outputs that are not used up. The worth of an
output is any number made of it: its value, or its value to one owner. Main statement: the worth of
the new outputs comes in, and under the strict mode the worth of the outputs named by the inputs
goes out.
-/

namespace CoinLedger.Log

/-- The worth that a list of outputs gives to an outpoint. -/
def worthAt (l : List (OutPoint × Output)) (worth : Output → Nat) (o : OutPoint) : Nat :=
  ((l.find? fun e => o.Same e.1).map fun e => worth e.2).getD 0

theorem worthAt_payments (log : List Transaction) (worth : Output → Nat) (o : OutPoint) :
    worthAt (payments log) worth o = ((outputAt? log o).map worth).getD 0 := by
  rw [worthAt, outputAt?, Option.map_map]
  rfl

theorem worthAt_filter {l : List (OutPoint × Output)} {p : OutPoint × Output → Bool}
    (worth : Output → Nat) {o : OutPoint} (h : ∀ e ∈ l, o.Same e.1 → p e = true) :
    worthAt (l.filter p) worth o = worthAt l worth o := by
  have same : ((l.filter p).filter fun e => o.Same e.1) = l.filter fun e => o.Same e.1 := by
    rw [List.filter_filter]
    apply List.filter_congr
    intro e member
    by_cases same : o.Same e.1
    · rw [h e member same, Bool.and_true]
    · rw [decide_eq_false same, Bool.false_and]
  rw [worthAt, worthAt, ← List.head?_filter, ← List.head?_filter, same]

theorem total_without_one (worth : Output → Nat) {l : List (OutPoint × Output)}
    (distinct : l.Pairwise fun e f => ¬e.1.Same f.1) (o : OutPoint) :
    total ((l.filter fun e => ¬o.Same e.1).map fun e => worth e.2) + worthAt l worth o =
      total (l.map fun e => worth e.2) := by
  have split := total_filter_add_total_filter_not l (fun e => o.Same e.1) fun e => worth e.2
  have named : total ((l.filter fun e => o.Same e.1).map fun e => worth e.2) = worthAt l worth o := by
    unfold worthAt
    cases found : l.find? fun e => o.Same e.1 with
    | none =>
      have none : l.filter (fun e => o.Same e.1) = [] := by
        rw [← List.head?_eq_none_iff, List.head?_filter, found]
      rw [none]
      rfl
    | some e =>
      have same : o.Same e.1 := by simpa using List.find?_some found
      have one : l.filter (fun e => o.Same e.1) = [e] := by
        apply filter_eq_singleton (List.mem_of_find?_eq_some found) same
        exact distinct.imp fun apart both => apart (both.1.symm.trans both.2)
      rw [one]
      rfl
  have tests : (fun e : OutPoint × Output => decide ¬o.Same e.1) = fun e => !decide (o.Same e.1) := by
    funext e
    exact decide_not
  rw [tests]
  omega

/-- Outpoints of their own take out what they name, and the rest stays. -/
theorem total_without_many (worth : Output → Nat) {l : List (OutPoint × Output)}
    (distinct : l.Pairwise fun e f => ¬e.1.Same f.1) {os : List OutPoint}
    (apart : os.Pairwise fun o p => ¬o.Same p) :
    total ((l.filter fun e => ¬∃ o ∈ os, o.Same e.1).map fun e => worth e.2) +
      total (os.map (worthAt l worth)) = total (l.map fun e => worth e.2) := by
  induction os generalizing l with
  | nil =>
    rw [List.filter_eq_self.2 (by simp)]
    rfl
  | cons o os ih =>
    obtain ⟨first, apart⟩ := List.pairwise_cons.1 apart
    have one := total_without_one worth distinct o
    have rest := ih (distinct.filter fun e => ¬o.Same e.1) apart
    -- without what the first outpoint names, the others name what they named before
    have same : os.map (worthAt (l.filter fun e => ¬o.Same e.1) worth) = os.map (worthAt l worth) := by
      apply List.map_congr_left
      intro p hp
      apply worthAt_filter worth
      intro e _ same
      exact decide_eq_true fun named => first p hp (named.trans same.symm)
    rw [same, List.filter_filter] at rest
    have tests : (fun e : OutPoint × Output => decide ¬∃ q ∈ o :: os, q.Same e.1) =
        fun e => (decide ¬∃ q ∈ os, q.Same e.1) && decide ¬o.Same e.1 := by
      funext e
      simp only [List.mem_cons, exists_eq_or_imp, not_or, Bool.decide_and]
      exact Bool.and_comm _ _
    rw [tests, List.map_cons, total_cons]
    omega

theorem total_payments (tx : Transaction) (worth : Output → Nat) :
    total (tx.payments.map fun e => worth e.2) = total (tx.body.outputs.map worth) := by
  have outputs : tx.payments.map Prod.snd = tx.body.outputs := by
    rw [Transaction.payments, List.map_map]
    exact List.zipIdx_map_fst 0 _
  rw [← outputs, List.map_map]
  rfl

theorem openWorth_runningCredit (log : List Transaction) (worth : Output → Nat) :
    openWorth .runningCredit log worth = total ((payments log).map fun e => worth e.2) := by
  unfold openWorth
  rw [List.filter_eq_self.2]
  intro e _
  exact decide_eq_true fun used => nomatch used.1

theorem openWorth_snoc_runningCredit (log : List Transaction) (tx : Transaction)
    (worth : Output → Nat) :
    openWorth .runningCredit (log ++ [tx]) worth =
      openWorth .runningCredit log worth + total (tx.body.outputs.map worth) := by
  simp only [openWorth_runningCredit, payments_append, payments_singleton, List.map_append,
    total_append, total_payments]

/-- Under running credit nothing is ever taken from what is owed. -/
theorem owed_le_append (log more : List Transaction) (owner : Hash) :
    owed .runningCredit log owner ≤ owed .runningCredit (log ++ more) owner := by
  rw [owed, owed, openWorth_runningCredit, openWorth_runningCredit, payments_append,
    List.map_append, total_append]
  exact Nat.le_add_right _ _

/-- The claims of a transaction are new to the log, and so are its outputs. -/
structure ClaimsFresh (log : List Transaction) (tx : Transaction) : Prop where
  distinct : Distinct log
  apart : tx.body.outpoints.Pairwise fun o p => ¬o.Same p
  unclaimed : ∀ o ∈ tx.body.outpoints, ∀ e ∈ payments log, o.Same e.1 → ¬Claimed log e.1

theorem openWorth_split {log : List Transaction} {tx : Transaction} (h : ClaimsFresh log tx)
    (worth : Output → Nat) :
    total (((payments log).filter fun e => ¬Consumed .strictUtxo (log ++ [tx]) e.1).map
        fun e => worth e.2) + claimedWorth log tx.body worth =
      openWorth .strictUtxo log worth := by
  have rest : (payments log).filter (fun e => ¬Consumed .strictUtxo (log ++ [tx]) e.1) =
      ((payments log).filter fun e => ¬Consumed .strictUtxo log e.1).filter
        fun e => ¬∃ o ∈ tx.body.outpoints, o.Same e.1 := by
    rw [List.filter_filter]
    apply List.filter_congr
    intro e _
    simp only [Consumed, true_and, claimed_snoc_iff, not_or, Bool.decide_and]
    exact Bool.and_comm _ _
  have named : tx.body.outpoints.map
      (worthAt ((payments log).filter fun e => ¬Consumed .strictUtxo log e.1) worth) =
        tx.body.outpoints.map fun o => ((outputAt? log o).map worth).getD 0 := by
    apply List.map_congr_left
    intro o member
    rw [← worthAt_payments]
    apply worthAt_filter worth
    intro e he same
    exact decide_eq_true fun used => h.unclaimed o member e he same used.2
  have many := total_without_many worth
    (h.distinct.payments.filter fun e => ¬Consumed .strictUtxo log e.1) h.apart
  rw [← rest, named] at many
  exact many

theorem claimedWorth_le {log : List Transaction} {tx : Transaction} (h : ClaimsFresh log tx)
    (worth : Output → Nat) :
    claimedWorth log tx.body worth ≤ openWorth .strictUtxo log worth := by
  rw [← openWorth_split h]
  exact Nat.le_add_left _ _

theorem openWorth_snoc_strictUtxo {log : List Transaction} {tx : Transaction}
    (h : ClaimsFresh log tx) (unpaid : ∀ e ∈ tx.payments, ¬Claimed (log ++ [tx]) e.1)
    (worth : Output → Nat) :
    openWorth .strictUtxo (log ++ [tx]) worth + claimedWorth log tx.body worth =
      openWorth .strictUtxo log worth + total (tx.body.outputs.map worth) := by
  have new : tx.payments.filter (fun e => ¬Consumed .strictUtxo (log ++ [tx]) e.1) =
      tx.payments := by
    apply List.filter_eq_self.2
    intro e member
    exact decide_eq_true fun used => unpaid e member used.2
  rw [← openWorth_split h]
  simp only [openWorth, payments_append, payments_singleton, List.filter_append,
    List.map_append, total_append, new, total_payments]
  omega

end CoinLedger.Log
