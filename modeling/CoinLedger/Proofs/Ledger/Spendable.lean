import CoinLedger.Proofs.Ledger.Faithful

/-!
What an owner may spend. Main statement: the owner's outputs that are not used up, in the order of the
log, and together they are worth the balance.
-/

namespace CoinLedger

theorem filterMap_eq_map_filter {α β : Type} {l : List α} {f : α → Option β} {p : α → Bool}
    {g : α → β} (h : ∀ a ∈ l, f a = if p a then some (g a) else none) :
    l.filterMap f = (l.filter p).map g := by
  induction l with
  | nil => rfl
  | cons a l ih =>
    have rest := ih fun b hb => h b (by simp [hb])
    rw [List.filterMap_cons, h a (by simp), rest]
    cases hp : p a <;> simp [hp]

namespace Log

variable {mode : Accounting} {log : List Transaction}

/-- The outputs of an owner that are not used up. -/
def openFor (mode : Accounting) (log : List Transaction) (owner : Hash) : List (OutPoint × Output) :=
  (payments log).filter fun e => e.2.owner.bytes = owner.bytes ∧ ¬Consumed mode log e.1

theorem mem_openFor_iff {owner : Hash} {e : OutPoint × Output} :
    e ∈ openFor mode log owner ↔
      e ∈ payments log ∧ e.2.owner.bytes = owner.bytes ∧ ¬Consumed mode log e.1 := by
  simp [openFor]

theorem total_openFor (mode : Accounting) (log : List Transaction) (owner : Hash) :
    total ((openFor mode log owner).map fun e => e.2.value.toNat) = owed mode log owner := by
  have split : openFor mode log owner =
      ((payments log).filter fun e => ¬Consumed mode log e.1).filter
        fun e => e.2.owner.bytes = owner.bytes := by
    rw [List.filter_filter]
    exact List.filter_congr fun e _ => Bool.decide_and _ _
  unfold owed openWorth Output.worthTo
  rw [split, total_map_ite]

end Log

namespace Book

def asSpendable (owner : Hash) (e : OutPoint × Output) : Spendable := ⟨e.1, owner, e.2.value⟩

namespace Faithful

variable {b : Book} {tx : Transaction}

theorem transaction?_eq_find? (h : b.Faithful) (id : Hash) :
    b.transaction? id = b.log.find? fun t => t.id.bytes = id.bytes := by
  rw [transaction?, h.positions]
  exact (List.find?_eq_bind_findIdx?_getElem? ..).symm

theorem transaction?_of_mem (h : b.Faithful) (logged : tx ∈ b.log) :
    b.transaction? tx.id = some tx := by
  have only : b.log.filter (fun t => t.id.bytes = tx.id.bytes) = [tx] := by
    refine filter_eq_singleton logged (Eq.refl tx.id.bytes) ?_
    exact h.lawful.distinct.imp fun apart both => apart (both.1.trans both.2.symm)
  rw [h.transaction?_eq_find?, ← List.head?_filter, only]
  rfl

theorem transactionsOf_eq (h : b.Faithful) (owner : Hash) :
    b.transactionsOf owner = b.log.filter (Transaction.paysTo owner) := by
  change (idsOf b.byOwner owner).filterMap b.transaction? = _
  rw [h.byOwner, List.filterMap_map]
  have found : ∀ ts : List Transaction, (∀ t ∈ ts, t ∈ b.log) →
      ts.filterMap (b.transaction? ∘ Transaction.id) = ts := by
    intro ts logged
    induction ts with
    | nil => rfl
    | cons t ts ih =>
      have first : (b.transaction? ∘ Transaction.id) t = some t :=
        h.transaction?_of_mem (logged t (by simp))
      rw [List.filterMap_cons_some first, ih fun u hu => logged u (by simp [hu])]
  exact found _ fun t member => (List.mem_filter.1 member).1

theorem any_spent_iff (h : b.Faithful) {e : OutPoint × Output} (member : e ∈ Log.payments b.log) :
    (b.outputs.find? e.1).any OutputRecord.spent = true ↔ Log.Consumed b.mode b.log e.1 := by
  have found := h.lawful.distinct.outputAt?_of_mem member (OutPoint.Same.refl e.1)
  rw [h.outputs, Log.recordAt?, found]
  exact decide_eq_true_iff

theorem spendableIn_eq (h : b.Faithful) (logged : tx ∈ b.log) (owner : Hash) :
    b.spendableIn owner tx =
      (tx.payments.filter fun e => e.2.owner.bytes = owner.bytes ∧
        ¬Log.Consumed b.mode b.log e.1).map (asSpendable owner) := by
  rw [Transaction.payments, List.filter_map, List.map_map, spendableIn]
  apply filterMap_eq_map_filter
  intro e member
  obtain ⟨output, place⟩ := e
  have paid : (outPointAt tx.id place, output) ∈ Log.payments b.log :=
    List.mem_flatMap.2 ⟨tx, logged, List.mem_map_of_mem member⟩
  have mark := h.any_spent_iff paid
  by_cases owns : output.owner.bytes = owner.bytes
  · by_cases used : Log.Consumed b.mode b.log (outPointAt tx.id place)
    · simpa [owns, used, mark] using used.1
    · simp [owns, used, mark, asSpendable]
  · simp [owns]

theorem spendableIn_of_not_paysTo {owner : Hash} (pays : tx.paysTo owner = false) :
    b.spendableIn owner tx = [] := by
  apply List.filterMap_eq_nil_iff.2
  intro e member
  have output := List.any_eq_false.1 pays e.1 (List.fst_mem_of_mem_zipIdx member)
  exact if_pos (by simpa using output)

theorem spendable_eq (h : b.Faithful) (owner : Hash) :
    b.spendable owner = (Log.openFor b.mode b.log owner).map (asSpendable owner) := by
  rw [spendable, h.transactionsOf_eq, Log.openFor, Log.payments]
  have found : ∀ ts : List Transaction, (∀ t ∈ ts, t ∈ b.log) →
      (ts.filter (Transaction.paysTo owner)).flatMap (b.spendableIn owner) =
        ((ts.flatMap Transaction.payments).filter fun e => e.2.owner.bytes = owner.bytes ∧
          ¬Log.Consumed b.mode b.log e.1).map (asSpendable owner) := by
    intro ts logged
    induction ts with
    | nil => rfl
    | cons t ts ih =>
      have first := h.spendableIn_eq (logged t (by simp)) owner
      have later := ih fun u hu => logged u (by simp [hu])
      rw [List.flatMap_cons, List.filter_append, List.map_append, ← first, ← later]
      cases pays : t.paysTo owner with
      | true => rw [List.filter_cons_of_pos pays, List.flatMap_cons]
      | false =>
        rw [List.filter_cons_of_neg (by simp [pays]), spendableIn_of_not_paysTo pays,
          List.nil_append]
  exact found b.log fun _ member => member

theorem spendableSum_eq (h : b.Faithful) (owner : Hash) :
    spendableSum (b.spendable owner) = b.balance owner := by
  rw [h.spendable_eq, spendableSum, List.map_map, h.balances, ← Log.total_openFor]
  rfl

theorem index_nonneg_of_mem_spendable (h : b.Faithful) {owner : Hash} :
    ∀ s ∈ b.spendable owner, 0 ≤ s.outpoint.index := by
  intro s member
  rw [h.spendable_eq] at member
  obtain ⟨e, kept, rfl⟩ := List.mem_map.1 member
  exact Log.index_nonneg_of_mem_payments (Log.mem_openFor_iff.1 kept).1

end Faithful

end Book

end CoinLedger
