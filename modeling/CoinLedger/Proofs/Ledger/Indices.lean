import CoinLedger.Proofs.Ledger.Reference

/-!
What one accepted transaction does to each index of a book. Main statements: a look-up in the
outputs after marking and recording, the balances after debits and payments and exactly when the
payments go through, and the ids that an owner's list gains.
-/

namespace CoinLedger.Book

section Outputs

variable (t : Table OutPoint OutputRecord)

theorem find?_markSpent (o p : OutPoint) :
    (markSpent t o).find? p =
      (t.find? p).map fun r => if o.Same p then { r with spent := true } else r := by
  unfold markSpent
  cases known : t.find? o with
  | none =>
    cases found : t.find? p with
    | none => rfl
    | some r =>
      have other : ¬o.Same p := by
        intro same
        rw [← t.find?_congr (OutPoint.key_eq_iff.2 same), known] at found
        exact nomatch found
      simp [other]
  | some record =>
    simp only [Table.find?_insert, OutPoint.key_eq_iff, OutPoint.same_comm (o := p)]
    by_cases same : o.Same p
    · have found : t.find? p = some record := by
        rw [← t.find?_congr (OutPoint.key_eq_iff.2 same), known]
      simp [found, same]
    · cases t.find? p <;> simp [same]

theorem find?_markAll (os : List OutPoint) (p : OutPoint) :
    (os.foldl markSpent t).find? p =
      (t.find? p).map fun r => if ∃ o ∈ os, o.Same p then { r with spent := true } else r := by
  induction os generalizing t with
  | nil => simp
  | cons o os ih =>
    rw [List.foldl_cons, ih, find?_markSpent]
    cases t.find? p with
    | none => rfl
    | some r =>
      by_cases first : o.Same p <;> by_cases later : ∃ q ∈ os, q.Same p <;>
        simp [first, later]

/-- Later entries of one list do not touch earlier ones when no two share an outpoint. -/
theorem find?_recordAll (id : Hash) {entries : List (Output × Nat)}
    (apart : entries.Pairwise fun e f => ¬(outPointAt id e.2).Same (outPointAt id f.2))
    (p : OutPoint) :
    (entries.foldl (recordOutput id) t).find? p =
      ((entries.find? fun e => p.Same (outPointAt id e.2)).map
        fun e => ⟨e.1.owner, e.1.value, false⟩).or (t.find? p) := by
  induction entries generalizing t with
  | nil => rfl
  | cons e rest ih =>
    obtain ⟨first, apart⟩ := List.pairwise_cons.1 apart
    rw [List.foldl_cons, ih _ apart, recordOutput, Table.find?_insert]
    by_cases same : p.Same (outPointAt id e.2)
    · have none : rest.find? (fun f => p.Same (outPointAt id f.2)) = none := by
        apply List.find?_eq_none.2
        intro f member found
        exact first f member (same.symm.trans (of_decide_eq_true found))
      simp [none, same, OutPoint.key_eq_iff]
    · simp [same, OutPoint.key_eq_iff]

theorem find?_recordOutputs (tx : Transaction) (p : OutPoint) :
    (tx.body.outputs.zipIdx.foldl (recordOutput tx.id) t).find? p =
      ((Log.outputAt? [tx] p).map fun output => ⟨output.owner, output.value, false⟩).or
        (t.find? p) := by
  have apart := tx.payments_pairwise
  rw [Transaction.payments, List.pairwise_map] at apart
  rw [find?_recordAll t tx.id apart, Log.outputAt?, Log.payments_singleton, Transaction.payments,
    List.find?_map, Option.map_map, Option.map_map]
  rfl

end Outputs

section Balances

def recordWorth (owner : Hash) (r : OutputRecord) : Nat :=
  if r.owner.bytes = owner.bytes then r.value.toNat else 0

theorem balanceIn_insert (t : Table Hash Nat) (owner other : Hash) (n : Nat) :
    balanceIn (t.insert owner n) other =
      if owner.bytes = other.bytes then n else balanceIn t other := by
  simp only [balanceIn, Table.find?_insert, Hash.key_eq_iff, eq_comm (a := other.bytes)]
  split <;> rfl

theorem balanceIn_congr (t : Table Hash Nat) {owner other : Hash}
    (same : owner.bytes = other.bytes) : balanceIn t owner = balanceIn t other := by
  rw [balanceIn, balanceIn, t.find?_congr (Hash.key_eq_iff.2 same)]

theorem balanceIn_debit (t : Table Hash Nat) (r : OutputRecord) (owner : Hash) :
    balanceIn (debit t r) owner = balanceIn t owner - recordWorth owner r := by
  rw [debit, balanceIn_insert, recordWorth]
  by_cases same : r.owner.bytes = owner.bytes
  · rw [if_pos same, if_pos same, balanceIn_congr t same]
  · rw [if_neg same, if_neg same, Nat.sub_zero]

theorem balanceIn_debitAll (t : Table Hash Nat) (rs : List OutputRecord) (owner : Hash) :
    balanceIn (rs.foldl debit t) owner = balanceIn t owner - total (rs.map (recordWorth owner)) := by
  induction rs generalizing t with
  | nil => rfl
  | cons r rs ih =>
    rw [List.foldl_cons, ih, balanceIn_debit, List.map_cons, total_cons]
    omega

theorem credit?_eq_some {t next : Table Hash Nat} {o : Output} (h : credit? t o = some next) :
    balanceIn t o.owner + o.value.toNat < coinBound ∧
      ∀ owner, balanceIn next owner = balanceIn t owner + o.worthTo owner := by
  simp only [credit?] at h
  split at h
  · next fits =>
    cases h
    refine ⟨fits, fun owner => ?_⟩
    rw [balanceIn_insert, Output.worthTo]
    by_cases same : o.owner.bytes = owner.bytes
    · rw [if_pos same, if_pos same, balanceIn_congr t same]
    · rw [if_neg same, if_neg same, Nat.add_zero]
  · exact nomatch h

theorem credit?_of_lt {t : Table Hash Nat} {o : Output}
    (fits : balanceIn t o.owner + o.value.toNat < coinBound) : ∃ next, credit? t o = some next := by
  rw [credit?]
  exact ⟨_, if_pos fits⟩

theorem balanceIn_creditAll {t next : Table Hash Nat} {outputs : List Output}
    (h : outputs.foldlM credit? t = some next) (owner : Hash) :
    balanceIn next owner = balanceIn t owner + total (outputs.map (Output.worthTo owner)) := by
  induction outputs generalizing t with
  | nil =>
    cases h
    rfl
  | cons o rest ih =>
    rw [List.foldlM_cons] at h
    obtain ⟨mid, first, later⟩ := Option.bind_eq_some_iff.1 h
    rw [ih later, (credit?_eq_some first).2 owner, List.map_cons, total_cons]
    omega

/-- The payments go through exactly when every owner's sum stays in bounds, in whatever order. -/
theorem creditAll_isSome_iff {t : Table Hash Nat} {outputs : List Output}
    (start : ∀ owner, balanceIn t owner < coinBound) :
    (∃ next, outputs.foldlM credit? t = some next) ↔
      ∀ owner, balanceIn t owner + total (outputs.map (Output.worthTo owner)) < coinBound := by
  induction outputs generalizing t with
  | nil => exact ⟨fun _ => start, fun _ => ⟨t, rfl⟩⟩
  | cons o rest ih =>
    -- both ways the hypothesis is used at the table after the first payment, still in bounds
    simp only [List.foldlM_cons, List.map_cons, total_cons]
    constructor
    · rintro ⟨next, h⟩ owner
      obtain ⟨mid, first, later⟩ := Option.bind_eq_some_iff.1 h
      obtain ⟨fits, sums⟩ := credit?_eq_some first
      have inBounds : ∀ owner, balanceIn mid owner < coinBound := by
        intro owner
        rw [sums owner, Output.worthTo]
        split
        · next same => rwa [← balanceIn_congr t same]
        · exact start owner
      have := (ih inBounds).1 ⟨next, later⟩ owner
      rw [sums owner] at this
      omega
    · intro bounded
      have fits : balanceIn t o.owner + o.value.toNat < coinBound := by
        have := bounded o.owner
        rw [Output.worthTo, if_pos rfl] at this
        omega
      obtain ⟨mid, first⟩ := credit?_of_lt fits
      have sums := (credit?_eq_some first).2
      have inBounds : ∀ owner, balanceIn mid owner < coinBound := by
        intro owner
        have := bounded owner
        rw [sums owner]
        omega
      have rest : ∀ owner, balanceIn mid owner + total (rest.map (Output.worthTo owner)) <
          coinBound := by
        intro owner
        have := bounded owner
        rw [sums owner]
        omega
      obtain ⟨next, later⟩ := (ih inBounds).2 rest
      exact ⟨next, Option.bind_eq_some_iff.2 ⟨mid, first, later⟩⟩

/-- The balances after the debits of a transaction, if the mode has any. -/
def debited (b : Book) (consumed : List OutPoint) : Table Hash Nat :=
  match b.mode with
  | .runningCredit => b.balances
  | .strictUtxo => (consumed.filterMap b.outputs.find?).foldl debit b.balances

theorem settle?_eq (b : Book) (consumed : List OutPoint) (outputs : List Output) :
    b.settle? consumed outputs = outputs.foldlM credit? (b.debited consumed) := by
  unfold settle? debited
  cases b.mode <;> rfl

def consumedWorth (lookup : OutPoint → Option OutputRecord) (owner : Hash) (os : List OutPoint) :
    Nat :=
  total (os.map fun o => ((lookup o).map (recordWorth owner)).getD 0)

theorem total_filterMap_recordWorth (lookup : OutPoint → Option OutputRecord) (owner : Hash)
    (os : List OutPoint) :
    total ((os.filterMap lookup).map (recordWorth owner)) = consumedWorth lookup owner os := by
  unfold consumedWorth
  induction os with
  | nil => rfl
  | cons o os ih =>
    cases known : lookup o with
    | none => simp [known, ih]
    | some record => simp [known, ih]

theorem balanceIn_debited (b : Book) (consumed : List OutPoint) (owner : Hash) :
    balanceIn (b.debited consumed) owner =
      match b.mode with
      | .runningCredit => b.balance owner
      | .strictUtxo => b.balance owner - consumedWorth b.outputs.find? owner consumed := by
  unfold debited
  cases b.mode with
  | runningCredit => rfl
  | strictUtxo =>
    simp only [balanceIn_debitAll, total_filterMap_recordWorth]
    rfl

end Balances

section Owners

def idsOf (t : Table Hash (List Hash)) (owner : Hash) : List Hash := (t.find? owner).getD []

theorem idsOf_congr (t : Table Hash (List Hash)) {owner other : Hash}
    (same : owner.bytes = other.bytes) : idsOf t owner = idsOf t other := by
  rw [idsOf, idsOf, t.find?_congr (Hash.key_eq_iff.2 same)]

theorem idsOf_noteOwner (t : Table Hash (List Hash)) (id owner other : Hash) :
    idsOf (noteOwner t id owner) other =
      if owner.bytes = other.bytes ∧ (idsOf t other).getLast?.map Hash.bytes ≠ some id.bytes then
        idsOf t other ++ [id]
      else idsOf t other := by
  by_cases same : owner.bytes = other.bytes
  · rw [← idsOf_congr t same]
    by_cases noted : (idsOf t owner).getLast?.map Hash.bytes = some id.bytes
    · have skip : noteOwner t id owner = t := by
        unfold noteOwner
        exact if_pos noted
      rw [skip, if_neg fun h => h.2 noted, idsOf_congr t same]
    · have write : noteOwner t id owner = t.insert owner (idsOf t owner ++ [id]) := by
        unfold noteOwner
        exact if_neg noted
      rw [write, if_pos ⟨same, noted⟩, idsOf, Table.find?_insert, if_pos (Hash.key_eq_iff.2 same.symm)]
      rfl
  · rw [if_neg fun h => same h.1]
    unfold noteOwner
    dsimp only
    split
    · rfl
    · rw [idsOf, Table.find?_insert, if_neg fun h => same (Hash.key_eq_iff.1 h).symm]
      rfl

theorem idsOf_noteAll {t : Table Hash (List Hash)} {id : Hash}
    (fresh : ∀ owner, ∀ i ∈ idsOf t owner, i.bytes ≠ id.bytes) (outputs : List Output)
    (owner : Hash) :
    idsOf (outputs.foldl (fun t o => noteOwner t id o.owner) t) owner =
      idsOf t owner ++ if outputs.any fun o => o.owner.bytes = owner.bytes then [id] else [] := by
  -- the table is generalised to one in which some earlier outputs are noted
  have general : ∀ (outputs prior : List Output) (s : Table Hash (List Hash)),
      (∀ other, idsOf s other = idsOf t other ++
        if prior.any fun o => o.owner.bytes = other.bytes then [id] else []) →
      ∀ other, idsOf (outputs.foldl (fun t o => noteOwner t id o.owner) s) other =
        idsOf t other ++
          if (prior ++ outputs).any fun o => o.owner.bytes = other.bytes then [id] else [] := by
    intro outputs
    induction outputs with
    | nil =>
      intro prior s noted other
      rw [List.append_nil]
      exact noted other
    | cons o rest ih =>
      intro prior s noted
      rw [List.append_cons]
      refine ih (prior ++ [o]) _ fun other => ?_
      rw [idsOf_noteOwner, noted other]
      by_cases before : prior.any fun o => o.owner.bytes = other.bytes
      · simp [before]
      · have last : (idsOf t other).getLast?.map Hash.bytes ≠ some id.bytes := by
          intro h
          obtain ⟨i, last, same⟩ := Option.map_eq_some_iff.1 h
          exact fresh other i (List.mem_of_getLast? last) same
        by_cases now : o.owner.bytes = other.bytes <;> simp [before, now, last]
  exact general outputs [] t (by simp) owner

end Owners

end CoinLedger.Book
