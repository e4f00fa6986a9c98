import CoinLedger.Proofs.Ledger.Audit
import CoinLedger.Proofs.Ledger.Conservation

/-!
What a log says whatever its order, and what of its order matters. Main statement: if a lawful log is
put in another order in which every spend still has its sources before it, every transaction is valid
in its new place.
-/

namespace CoinLedger

/-- An input of the transaction names an output of the source. -/
def Transaction.SpendsFrom (tx source : Transaction) : Prop :=
  ∃ o ∈ tx.body.outpoints, ∃ output, o.Names source output

namespace Log

variable {mode : Accounting} {log shuffled before later : List Transaction} {tx : Transaction}

/-- Every spend of the log comes after the transactions whose outputs it names. -/
def SourcesFirst (log : List Transaction) : Prop :=
  ∀ before tx later, log = before ++ tx :: later → tx.body.isCoinbase = false →
    ∀ source ∈ log, tx.SpendsFrom source → source ∈ before

section Perm

variable (same : shuffled.Perm log)

include same

theorem payments_perm : (payments shuffled).Perm (payments log) := same.flatMap_right _

theorem claims_perm : (claims shuffled).Perm (claims log) := same.flatMap_right _

theorem consumed_iff_of_perm {o : OutPoint} : Consumed mode shuffled o ↔ Consumed mode log o := by
  simp only [Consumed, Claimed, (claims_perm same).mem_iff]

theorem openWorth_perm (worth : Output → Nat) :
    openWorth mode shuffled worth = openWorth mode log worth := by
  simp only [openWorth, consumed_iff_of_perm same]
  exact total_perm (((payments_perm same).filter _).map _)

theorem minted_perm : minted shuffled = minted log := total_perm ((same.filter _).map _)

theorem distinct_perm (distinct : Distinct log) : Distinct shuffled :=
  distinct.perm same.symm fun apart same => apart same.symm

theorem outputAt?_perm (distinct : Distinct log) (o : OutPoint) :
    outputAt? shuffled o = outputAt? log o := by
  apply Option.ext
  intro output
  rw [distinct.outputAt?_eq_some_iff, (distinct_perm same distinct).outputAt?_eq_some_iff]
  simp only [same.mem_iff]

theorem recordAt?_perm (distinct : Distinct log) (o : OutPoint) :
    recordAt? mode shuffled o = recordAt? mode log o := by
  simp only [recordAt?, outputAt?_perm same distinct, consumed_iff_of_perm same]

end Perm

/-- What an input named before is what it names in the new place, for its source is there. -/
theorem SourcesFirst.outputAt?_eq (ordered : SourcesFirst (before ++ tx :: later))
    (distinct : Distinct (before ++ tx :: later)) (spend : tx.body.isCoinbase = false)
    {o : OutPoint} (claim : o ∈ tx.body.outpoints) {source : Transaction} {output : Output}
    (logged : source ∈ before ++ tx :: later) (names : o.Names source output) :
    outputAt? before o = some output := by
  have first := ordered before tx later rfl spend source logged ⟨o, claim, output, names⟩
  have apart : Distinct before := distinct.sublist (List.sublist_append_left _ _)
  exact apart.outputAt?_eq_some_iff.2 ⟨source, first, names⟩

/-- An outpoint that is named at most once in the log is not named before the input that does. -/
theorem not_claimed_of_countP_le {o : OutPoint} (claim : o ∈ tx.body.outpoints)
    (once : (claims (before ++ tx :: later)).countP (fun p => p.Same o) ≤ 1) :
    ¬Claimed before o := by
  have here : 0 < tx.body.outpoints.countP fun p => p.Same o :=
    List.countP_pos_iff.2 ⟨o, claim, decide_eq_true (OutPoint.Same.refl o)⟩
  rw [List.append_cons, claims_append, claims_append, claims_singleton, List.countP_append,
    List.countP_append] at once
  rw [not_claimed_iff]
  omega

/-- A transaction stays valid where its inputs name what they named, unclaimed under the strict
mode. -/
theorem Valid.transfer (h : Valid mode log tx) (fresh : ∀ t ∈ before, t.id.bytes ≠ tx.id.bytes)
    (named : tx.body.isCoinbase = false → ∀ o ∈ tx.body.outpoints,
      outputAt? before o = outputAt? log o)
    (unclaimed : mode = .strictUtxo → tx.body.isCoinbase = false → ∀ o ∈ tx.body.outpoints,
      ¬Claimed before o) : Valid mode before tx := by
  refine ⟨h.schema, fresh, h.bounded, fun spend => ?_⟩
  have sound := h.spend spend
  have value : Validation.valueOf (recordAt? mode before) tx.body.outpoints =
      Validation.valueOf (recordAt? mode log) tx.body.outpoints := by
    rw [valueOf_recordAt?, valueOf_recordAt?, inputSum, inputSum, claimedWorth, claimedWorth]
    exact congrArg total (List.map_congr_left fun o claim => by rw [named spend o claim])
  refine ⟨⟨?_, ?_, fun _ _ _ _ seen => absurd seen List.not_mem_nil,
    sound.inputs.apart⟩, ?_, ?_⟩
  · intro i input
    have claim : i.outpoint ∈ tx.body.outpoints := List.mem_map_of_mem input
    obtain ⟨record, known, u, shown, owns, signed⟩ := sound.inputs.opens i input
    obtain ⟨output, found, rfl⟩ := outputAt?_of_recordAt? known
    refine ⟨⟨output.owner, output.value, decide (Consumed mode before i.outpoint)⟩, ?_,
      u, shown, owns, signed⟩
    rw [recordAt?, named spend _ claim, found]
    rfl
  · intro strict i input record known
    have claim : i.outpoint ∈ tx.body.outpoints := List.mem_map_of_mem input
    obtain ⟨output, _, rfl⟩ := outputAt?_of_recordAt? known
    exact decide_eq_false fun used => unclaimed strict spend _ claim used.2
  · rw [value]
    exact sound.bounded
  · intro strict
    rw [value]
    exact sound.balanced strict

theorem Lawful.valid_shuffled (h : Lawful mode log) (same : (before ++ tx :: later).Perm log)
    (ordered : SourcesFirst (before ++ tx :: later)) : Valid mode before tx := by
  have distinct := distinct_perm same h.distinct
  obtain ⟨front, rest, rfl⟩ : ∃ front rest, log = front ++ tx :: rest :=
    List.append_of_mem (same.mem_iff.1 (List.mem_append_cons_self))
  have valid := h.valid_at
  -- what an input named in the old place, and names in all of the log
  have sources : tx.body.isCoinbase = false → ∀ o ∈ tx.body.outpoints, ∃ output,
      outputAt? front o = some output ∧ outputAt? before o = some output := by
    intro spend o claim
    obtain ⟨output, found⟩ := valid.named spend claim
    obtain ⟨source, logged, names⟩ := names_of_outputAt? found
    have also := same.mem_iff.2 (List.mem_append_left _ logged)
    exact ⟨output, found, ordered.outputAt?_eq distinct spend claim also names⟩
  refine valid.transfer ?_ ?_ ?_
  · have apart := List.pairwise_append.1 distinct
    exact fun t logged => apart.2.2 t logged tx List.mem_cons_self
  · intro spend o claim
    obtain ⟨output, found, now⟩ := sources spend o claim
    rw [found, now]
  · rintro rfl spend o claim
    obtain ⟨output, found, _⟩ := sources spend o claim
    apply not_claimed_of_countP_le claim
    rw [(claims_perm same).countP_eq]
    exact h.countP_claims_le (outputAt?_append_of_some found _)

end Log

end CoinLedger
