import CoinLedger.Proofs.Ledger.Faithful
import CoinLedger.Proofs.Table

/-!
Where all coins come from and go to under the strict mode. The coins of all owners together are the
value of the open outputs, and that value changes only as money is made or is left behind by a spend
that pays out less than it takes in. Main statement: the coins of all owners and what spends left
behind make up what was minted.
-/

namespace CoinLedger

namespace Log

def spends (log : List Transaction) : List Transaction := log.filter fun tx => !tx.body.isCoinbase

/-- All money ever made. -/
def minted (log : List Transaction) : Nat :=
  total ((log.filter fun tx => tx.body.isCoinbase).map fun tx => tx.body.outputSum)

/-- What the spends took in beyond what they paid out. -/
def leftBehind (log : List Transaction) : Nat :=
  total ((spends log).map fun tx => inputSum log tx.body - tx.body.outputSum)

variable {mode : Accounting} {log : List Transaction} {tx : Transaction}

theorem spends_append (log more : List Transaction) : spends (log ++ more) = spends log ++ spends more :=
  List.filter_append _ _

theorem mem_spends_iff : tx ∈ spends log ↔ tx ∈ log ∧ tx.body.isCoinbase = false := by
  simp [spends]

theorem Lawful.named (h : Lawful mode log) {t : Transaction} (member : t ∈ spends log)
    {o : OutPoint} (claim : o ∈ t.body.outpoints) : ∃ output, outputAt? log o = some output := by
  obtain ⟨logged, spend⟩ := mem_spends_iff.1 member
  obtain ⟨before, later, rfl⟩ := List.append_of_mem logged
  obtain ⟨output, found⟩ := h.valid_at.named spend claim
  exact ⟨output, outputAt?_append_of_some found _⟩

/-- A longer log does not change what the inputs of a body are worth once they are all known. -/
theorem inputSum_append {b : Body} (named : ∀ o ∈ b.outpoints, ∃ output, outputAt? log o = some output)
    (more : List Transaction) : inputSum (log ++ more) b = inputSum log b := by
  unfold inputSum claimedWorth
  refine congrArg total (List.map_congr_left fun o member => ?_)
  obtain ⟨output, found⟩ := named o member
  rw [found, outputAt?_append_of_some found]

theorem minted_snoc (log : List Transaction) (tx : Transaction) :
    minted (log ++ [tx]) = minted log + if tx.body.isCoinbase then tx.body.outputSum else 0 := by
  rw [minted, List.filter_append, List.map_append, total_append, ← minted]
  cases coinbase : tx.body.isCoinbase <;> simp [coinbase]

theorem Valid.leftBehind_snoc (h : Valid mode log tx) (lawful : Lawful mode log) :
    leftBehind (log ++ [tx]) = leftBehind log +
      if tx.body.isCoinbase then 0 else inputSum log tx.body - tx.body.outputSum := by
  have before : (spends log).map (fun t => inputSum (log ++ [tx]) t.body - t.body.outputSum) =
      (spends log).map fun t => inputSum log t.body - t.body.outputSum := by
    apply List.map_congr_left
    intro t member
    rw [inputSum_append fun _ claim => lawful.named member claim]
  rw [leftBehind, spends_append, List.map_append, total_append, before, ← leftBehind]
  cases coinbase : tx.body.isCoinbase with
  | true => simp [spends, coinbase]
  | false =>
    have now := inputSum_append (fun _ claim => h.named coinbase claim) [tx]
    simp [spends, coinbase, now]

/-- The values of the outputs that are not used up. -/
def circulation (mode : Accounting) (log : List Transaction) : Nat :=
  openWorth mode log fun output => output.value.toNat

theorem Valid.circulation_snoc (h : Valid .strictUtxo log tx) (lawful : Lawful .strictUtxo log) :
    circulation .strictUtxo (log ++ [tx]) + inputSum log tx.body =
      circulation .strictUtxo log + tx.body.outputSum :=
  h.openWorth_snoc lawful _

theorem Valid.circulation_add_leftBehind (h : Valid .strictUtxo log tx)
    (lawful : Lawful .strictUtxo log)
    (sums : circulation .strictUtxo log + leftBehind log = minted log) :
    circulation .strictUtxo (log ++ [tx]) + leftBehind (log ++ [tx]) = minted (log ++ [tx]) := by
  have change := h.circulation_snoc lawful
  rw [h.leftBehind_snoc lawful, minted_snoc]
  cases coinbase : tx.body.isCoinbase with
  | true =>
    have nothing : inputSum log tx.body = 0 := h.claimedWorth_of_coinbase coinbase _
    simp only [if_true]
    omega
  | false =>
    have balanced := h.outputSum_le coinbase
    simp only [Bool.false_eq_true, if_false]
    omega

theorem Lawful.circulation_add_leftBehind (h : Lawful .strictUtxo log) :
    circulation .strictUtxo log + leftBehind log = minted log := by
  induction h with
  | nil => rfl
  | snoc before valid _ ih => exact valid.circulation_add_leftBehind before ih

theorem owed_le_circulation (mode : Accounting) (log : List Transaction) (owner : Hash) :
    owed mode log owner ≤ circulation mode log := by
  refine total_map_le fun e _ => ?_
  rw [Output.worthTo]
  split
  · exact Nat.le_refl _
  · exact Nat.zero_le _

end Log

namespace Book

/-- Owners, each once, among whom is everyone who has coins. -/
structure Holders (b : Book) (holders : List Hash) : Prop where
  apart : holders.Pairwise fun h k => h.bytes ≠ k.bytes
  complete : ∀ owner, b.balance owner ≠ 0 → ∃ h ∈ holders, h.bytes = owner.bytes

theorem holders_keys (b : Book) : b.Holders b.balances.keys where
  apart := b.balances.keys_pairwise.imp fun apart same => apart (Hash.key_eq_iff.2 same)
  complete owner some := by
    cases found : b.balances.find? owner with
    | none => exact absurd (by rw [balance, balanceIn, found]; rfl) some
    | some n =>
      obtain ⟨k, member, same⟩ := Table.mem_keys_of_find?_eq_some found
      exact ⟨k, member, (Hash.key_eq_iff.1 same).symm⟩

/-- An output is worth its value to all owners together, if its own is one of them. -/
theorem total_worthTo {holders : List Hash} (apart : holders.Pairwise fun h k => h.bytes ≠ k.bytes)
    {output : Output} {h : Hash} (member : h ∈ holders) (same : h.bytes = output.owner.bytes) :
    total (holders.map fun k => output.worthTo k) = output.value.toNat := by
  have own : holders.filter (fun k => output.owner.bytes = k.bytes) = [h] := by
    apply filter_eq_singleton member same.symm
    exact apart.imp fun apart both => apart (both.1.symm.trans both.2)
  unfold Output.worthTo
  rw [total_map_ite, own]
  exact Nat.add_zero _

namespace Faithful

variable {b : Book} {holders : List Hash}

theorem value_le_balance (h : b.Faithful) {e : OutPoint × Output} (member : e ∈ Log.payments b.log)
    (free : ¬Log.Consumed b.mode b.log e.1) : e.2.value.toNat ≤ b.balance e.2.owner := by
  rw [h.balances, Log.owed, Log.openWorth]
  have kept : e ∈ (Log.payments b.log).filter fun e => ¬Log.Consumed b.mode b.log e.1 :=
    List.mem_filter.2 ⟨member, decide_eq_true free⟩
  refine Nat.le_trans (Nat.le_of_eq ?_) (le_total_map _ kept)
  rw [Output.worthTo, if_pos rfl]

theorem total_balance (h : b.Faithful) (all : b.Holders holders) :
    total (holders.map b.balance) = Log.circulation b.mode b.log := by
  rw [funext h.balances]
  unfold Log.owed Log.circulation Log.openWorth
  rw [total_map_total_comm]
  refine congrArg total (List.map_congr_left fun e kept => ?_)
  obtain ⟨member, free⟩ := List.mem_filter.1 kept
  have bound := h.value_le_balance member (of_decide_eq_true free)
  -- an owner without coins need not be listed, but then the output is worth nothing
  by_cases zero : b.balance e.2.owner = 0
  · have worthless : e.2.value.toNat = 0 := by omega
    refine Eq.trans (total_map_eq_zero fun k _ => ?_) worthless.symm
    rw [Output.worthTo, worthless, ite_self]
  · obtain ⟨k, member, same⟩ := all.complete _ zero
    exact total_worthTo all.apart member same

end Faithful

theorem circulation_le_of_accepts {b : Book} (h : b.Faithful) (strict : b.mode = .strictUtxo)
    {tx : Transaction} {a : Accepted} {balances : Table Hash Nat} (accepts : b.Accepts tx a balances)
    (spend : tx.body.isCoinbase = false) :
    Log.circulation .strictUtxo (b.log ++ [tx]) ≤ Log.circulation .strictUtxo b.log := by
  obtain ⟨valid, _, _⟩ := h.accepts_iff.1 accepts
  have lawful := h.lawful
  rw [strict] at valid lawful
  have change := valid.circulation_snoc lawful
  have balanced := valid.outputSum_le spend
  omega

theorem circulation_after_le {b : Book} (h : b.Faithful) (strict : b.mode = .strictUtxo)
    {txs : List Transaction} (spends : ∀ tx ∈ txs, tx.body.isCoinbase = false) :
    Log.circulation .strictUtxo (b.after txs).log ≤ Log.circulation .strictUtxo b.log := by
  induction txs generalizing b with
  | nil => exact Nat.le_refl _
  | cons tx txs ih =>
    have rest : ∀ t ∈ txs, t.body.isCoinbase = false := fun t member => spends t (by simp [member])
    rw [after_cons]
    rcases attempt_cases b tx with same | ⟨a, balances, accepts, appended⟩
    · rw [same]
      exact ih h strict rest
    · rw [appended]
      refine Nat.le_trans (ih (h.append_of_accepts accepts) strict rest) ?_
      exact circulation_le_of_accepts h strict accepts (spends tx (by simp))

/-- Conservation, however the owners are listed: their coins and what the spends left behind, none of
which is a negative amount, make up what was minted. So spends never add to the sum of all balances,
and no owner has more than was ever minted. -/
theorem conservation (txs : List Transaction) :
    ((empty .strictUtxo).after txs).Holders ((empty .strictUtxo).after txs).balances.keys ∧
    (∀ holders, ((empty .strictUtxo).after txs).Holders holders →
      total (holders.map ((empty .strictUtxo).after txs).balance) +
          Log.leftBehind ((empty .strictUtxo).after txs).log =
        Log.minted ((empty .strictUtxo).after txs).log) ∧
    (∀ tx ∈ Log.spends ((empty .strictUtxo).after txs).log,
      tx.body.outputSum ≤ Log.inputSum ((empty .strictUtxo).after txs).log tx.body) ∧
    (∀ more, (∀ tx ∈ more, tx.body.isCoinbase = false) →
      ∀ holders later, ((empty .strictUtxo).after txs).Holders holders →
        ((empty .strictUtxo).after (txs ++ more)).Holders later →
        total (later.map ((empty .strictUtxo).after (txs ++ more)).balance) ≤
          total (holders.map ((empty .strictUtxo).after txs).balance)) ∧
    ∀ owner, ((empty .strictUtxo).after txs).balance owner ≤
      Log.minted ((empty .strictUtxo).after txs).log := by
  have faithful := faithful_after .strictUtxo txs
  have strict : ((empty .strictUtxo).after txs).mode = .strictUtxo := mode_after _ txs
  have runs : ∀ more, ((empty .strictUtxo).after (txs ++ more)) =
      ((empty .strictUtxo).after txs).after more := fun more => after_append _ txs more
  simp only [runs]
  generalize (empty .strictUtxo).after txs = b at *
  have lawful := faithful.lawful
  rw [strict] at lawful
  have sums := lawful.circulation_add_leftBehind
  refine ⟨b.holders_keys, ?_, ?_, ?_, ?_⟩
  · intro holders all
    rw [faithful.total_balance all, strict, sums]
  · intro tx member
    obtain ⟨logged, spend⟩ := Log.mem_spends_iff.1 member
    obtain ⟨before, later, split⟩ := List.append_of_mem logged
    rw [split] at lawful ⊢
    rw [Log.inputSum_append fun _ claim => lawful.valid_at.named spend claim]
    exact lawful.valid_at.outputSum_le spend
  · intro more spends holders later all allLater
    rw [faithful.total_balance all, (faithful.after more).total_balance allLater, mode_after, strict]
    exact circulation_after_le faithful strict spends
  · intro owner
    rw [faithful.balances owner, strict, ← sums]
    exact Nat.le_trans (Log.owed_le_circulation _ _ owner) (Nat.le_add_right _ _)

end Book

end CoinLedger
