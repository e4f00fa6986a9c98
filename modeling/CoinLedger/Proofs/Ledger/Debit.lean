import CoinLedger.Proofs.Ledger.Faithful

/-!
Who can make a balance smaller. The coins that a transaction takes are those of recorded owners, and
what it shows for them are the keys and signatures of its inputs. Main statements: an owner loses no
more than the outputs that inputs signed with its own key use up, under running credit nothing, and
through a whole history nothing unless it signed.
-/

namespace CoinLedger

/-- The input shows a key of the owner and a signature that this key accepts on the payload. -/
def Input.isSignedBy (owner : Hash) (payload : List UInt8) (i : Input) : Bool :=
  i.unlock.any fun u => u.key.address.bytes = owner.bytes && u.key.verify payload u.signature

theorem Input.isSignedBy_iff {owner : Hash} {payload : List UInt8} {i : Input} :
    i.isSignedBy owner payload = true ↔
      ∃ u, i.unlock = some u ∧ u.key.address.bytes = owner.bytes ∧
        u.key.verify payload u.signature = true := by
  simp [isSignedBy, Option.any_eq_true]

/-- The inputs of a body that the owner signed. -/
def Body.inputsSignedBy (owner : Hash) (b : Body) : List Input :=
  b.inputs.filter (Input.isSignedBy owner b.signingPayload)

namespace Log

/-- What the outputs of a log that some inputs name are worth to an owner, each output once. -/
def namedWorth (log : List Transaction) (inputs : List Input) (owner : Hash) : Nat :=
  total (((payments log).filter fun e => ∃ i ∈ inputs, i.outpoint.Same e.1).map
    fun e => e.2.worthTo owner)

@[simp] theorem namedWorth_nil (log : List Transaction) (owner : Hash) :
    namedWorth log [] owner = 0 := by
  have none : (payments log).filter (fun e => ∃ i ∈ ([] : List Input), i.outpoint.Same e.1) = [] := by
    apply List.filter_eq_nil_iff.2
    simp
  rw [namedWorth, none]
  rfl

variable {mode : Accounting} {log : List Transaction} {tx : Transaction}

/-- Whoever newly uses up an output of the log signed as its owner. -/
theorem Valid.signed_of_consumed (h : Valid mode log tx) (distinct : Distinct log)
    {e : OutPoint × Output} (member : e ∈ payments log) (free : ¬Consumed mode log e.1)
    (used : Consumed mode (log ++ [tx]) e.1) {owner : Hash} (own : e.2.owner.bytes = owner.bytes) :
    ∃ i ∈ tx.body.inputsSignedBy owner, i.outpoint.Same e.1 := by
  have claimed := (claimed_snoc_iff.1 used.2).resolve_left fun old => free ⟨used.1, old⟩
  obtain ⟨o, claim, same⟩ := claimed
  obtain ⟨i, input, rfl⟩ := List.mem_map.1 claim
  refine ⟨i, List.mem_filter.2 ⟨input, ?_⟩, same⟩
  cases coinbase : tx.body.isCoinbase with
  | true =>
    -- the one claim of such a transaction names no place
    have negative := Body.index_neg_of_coinbase h.schema coinbase claim
    rw [same.2] at negative
    exact absurd (index_nonneg_of_mem_payments member) (Int64.not_le.2 negative)
  | false =>
    obtain ⟨record, known, u, shown, owns, signed⟩ := (h.spend coinbase).inputs.opens i input
    obtain ⟨output, found, rfl⟩ := outputAt?_of_recordAt? known
    cases Option.some.inj (found.symm.trans (distinct.outputAt?_of_mem member same))
    exact Input.isSignedBy_iff.2 ⟨u, shown, owns.trans own, signed⟩

/-- Output by output: what is no longer owed was named by an input that the owner signed. -/
theorem Valid.owed_le (h : Valid mode log tx) (distinct : Distinct log) (owner : Hash) :
    owed mode log owner ≤
      owed mode (log ++ [tx]) owner + namedWorth log (tx.body.inputsSignedBy owner) owner := by
  have kept : total (((payments log).filter fun e => ¬Consumed mode (log ++ [tx]) e.1).map
      fun e => e.2.worthTo owner) ≤ owed mode (log ++ [tx]) owner := by
    simp only [owed, openWorth, payments_append, List.filter_append, List.map_append, total_append]
    exact Nat.le_add_right _ _
  refine Nat.le_trans ?_ (Nat.add_le_add_right kept _)
  unfold owed openWorth namedWorth
  rw [← total_map_ite, ← total_map_ite, ← total_map_ite, ← total_map_add]
  refine total_map_le fun e member => ?_
  by_cases free : ¬Consumed mode log e.1
  · rw [if_pos free]
    by_cases used : Consumed mode (log ++ [tx]) e.1
    · by_cases own : e.2.owner.bytes = owner.bytes
      · have named := h.signed_of_consumed distinct member free used own
        rw [if_pos named]
        exact Nat.le_add_left _ _
      · rw [Output.worthTo, if_neg own]
        exact Nat.zero_le _
    · rw [if_pos used]
      exact Nat.le_add_right _ _
  · rw [if_neg free]
    exact Nat.zero_le _

theorem owed_le_snoc_runningCredit (log : List Transaction) (tx : Transaction) (owner : Hash) :
    owed .runningCredit log owner ≤ owed .runningCredit (log ++ [tx]) owner := by
  rw [owed, owed, openWorth_snoc_runningCredit]
  exact Nat.le_add_right _ _

end Log

namespace Book

variable {b : Book}

/-- The most that one attempt takes from an owner. -/
theorem Faithful.balance_le_attempt (h : b.Faithful) (tx : Transaction) (owner : Hash) :
    b.balance owner ≤
      (b.attempt tx).balance owner +
        match b.mode with
        | .runningCredit => 0
        | .strictUtxo => Log.namedWorth b.log (tx.body.inputsSignedBy owner) owner := by
  rcases attempt_cases b tx with same | ⟨a, balances, accepts, appended⟩
  · rw [same]
    exact Nat.le_add_right _ _
  · have faithful := h.append_of_accepts accepts
    have valid := (h.accepts_iff.1 accepts).1
    rw [appended, h.balances, faithful.balances, append_mode, append_log]
    cases mode : b.mode with
    | runningCredit => exact Log.owed_le_snoc_runningCredit b.log tx owner
    | strictUtxo =>
      rw [mode] at valid
      exact valid.owed_le h.lawful.distinct owner

/-- What it means that an owner has less coins after an attempt than before it. -/
theorem Faithful.debit_signed (h : b.Faithful) {tx : Transaction} {owner : Hash}
    (drop : (b.attempt tx).balance owner < b.balance owner) :
    b.mode = .strictUtxo ∧
      (∃ i ∈ tx.body.inputs, ∃ u, i.unlock = some u ∧ u.key.address.bytes = owner.bytes ∧
        u.key.verify tx.body.signingPayload u.signature = true) ∧
      b.balance owner - (b.attempt tx).balance owner ≤
        Log.namedWorth b.log (tx.body.inputsSignedBy owner) owner := by
  have most := h.balance_le_attempt tx owner
  cases mode : b.mode with
  | runningCredit =>
    simp only [mode] at most
    omega
  | strictUtxo =>
    simp only [mode] at most
    refine ⟨rfl, ?_, by omega⟩
    cases signed : tx.body.inputsSignedBy owner with
    | nil =>
      rw [signed, Log.namedWorth_nil] at most
      omega
    | cons i rest =>
      have member : i ∈ tx.body.inputsSignedBy owner := by simp [signed]
      obtain ⟨input, accepted⟩ := List.mem_filter.1 member
      exact ⟨i, input, Input.isSignedBy_iff.1 accepted⟩

/-- Nothing is lost through a history under running credit, nor by an owner who signs nothing of it. -/
theorem Faithful.balance_le_after (h : b.Faithful) {owner : Hash} {txs : List Transaction}
    (unsigned : b.mode = .runningCredit ∨ ∀ tx ∈ txs, tx.body.inputsSignedBy owner = []) :
    b.balance owner ≤ (b.after txs).balance owner := by
  induction txs generalizing b with
  | nil => exact Nat.le_refl _
  | cons tx txs ih =>
    have mode : (b.attempt tx).mode = b.mode := mode_after b [tx]
    have rest : (b.attempt tx).balance owner ≤ ((b.attempt tx).after txs).balance owner := by
      refine ih (h.after [tx]) ?_
      rw [mode]
      exact unsigned.imp id fun none t member => none t (List.mem_cons_of_mem tx member)
    refine Nat.le_trans (Nat.le_of_not_lt fun drop => ?_) rest
    obtain ⟨strict, ⟨i, input, accepted⟩, _⟩ := h.debit_signed drop
    rcases unsigned with credit | none
    · rw [credit] at strict
      exact nomatch strict
    · have signed : i ∈ tx.body.inputsSignedBy owner :=
        List.mem_filter.2 ⟨input, Input.isSignedBy_iff.2 accepted⟩
      rw [none tx List.mem_cons_self] at signed
      exact nomatch signed

end Book

end CoinLedger
