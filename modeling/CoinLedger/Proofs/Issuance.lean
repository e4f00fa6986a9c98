import CoinLedger.Issuance
import CoinLedger.Proofs.Message
import CoinLedger.Proofs.Spend

/-!
Issuances as they are built. Main statements: when one can be built and which one it is, that it has
the right form and makes money, and that it pays to each owner the amount as many times as the owner
is listed, under whatever spelling.
-/

namespace CoinLedger

/-- How many times an owner is listed, in any spelling. -/
def occurrences (owner : Hash) (beneficiaries : List Hash) : Nat :=
  beneficiaries.countP fun b => b.bytes = owner.bytes

def issuanceOutputs (beneficiaries : List Hash) (amount : UInt64) : List Output :=
  beneficiaries.map fun owner => ⟨amount, owner⟩

theorem length_issuanceOutputs (beneficiaries : List Hash) (amount : UInt64) :
    (issuanceOutputs beneficiaries amount).length = beneficiaries.length := List.length_map _

/-- The body of an issuance: the same amount to each beneficiary, out of nothing. -/
def issuanceBody (beneficiaries : List Hash) (amount : UInt64)
    (fit : (issuanceOutputs beneficiaries amount).length < placeBound) : Body where
  version := protocolVersion
  inputs := [.coinbase]
  outputs := issuanceOutputs beneficiaries amount
  lockTime := 0
  outputs_fit := fit

section Outputs

variable (beneficiaries : List Hash) (amount : UInt64)

theorem total_issuanceOutputs :
    total ((issuanceOutputs beneficiaries amount).map fun o => o.value.toNat) =
      amount.toNat * beneficiaries.length := by
  rw [issuanceOutputs, List.map_map]
  exact total_map_const beneficiaries amount.toNat

theorem total_issuanceOutputs_worthTo (owner : Hash) :
    total ((issuanceOutputs beneficiaries amount).map (Output.worthTo owner)) =
      amount.toNat * occurrences owner beneficiaries := by
  rw [issuanceOutputs, List.map_map, occurrences, List.countP_eq_length_filter,
    ← total_map_const, ← total_map_ite]
  rfl

end Outputs

section Body

variable {beneficiaries : List Hash} {amount : UInt64}
  {fit : (issuanceOutputs beneficiaries amount).length < placeBound}

theorem isCoinbase_issuanceBody : (issuanceBody beneficiaries amount fit).isCoinbase = true := rfl

theorem checkSchema_issuanceBody (some : beneficiaries ≠ []) :
    (issuanceBody beneficiaries amount fit).checkSchema = .ok () := by
  refine Body.checkSchema_eq_ok_iff.2 ⟨rfl, rfl, List.cons_ne_nil _ _, ?_, ?_⟩
  · intro none
    exact some (List.map_eq_nil_iff.1 none)
  · intro i member
    cases List.mem_singleton.1 member
    exact ⟨rfl, rfl⟩

theorem keysOnCurve_issuanceBody : (issuanceBody beneficiaries amount fit).KeysOnCurve := by
  intro i member u shown
  cases List.mem_singleton.1 member
  exact nomatch shown

end Body

section Building

variable {beneficiaries : List Hash} {amount : Int64}

theorem outputSum_issuanceBody (nonneg : 0 ≤ amount)
    (fit : (issuanceOutputs beneficiaries amount.toUInt64).length < placeBound) :
    (issuanceBody beneficiaries amount.toUInt64 fit).outputSum =
      amount.toNatClampNeg * beneficiaries.length := by
  rw [← Int64.toNat_toUInt64_of_le nonneg]
  exact total_issuanceOutputs _ _

theorem buildIssuance_eq (nonneg : 0 ≤ amount) :
    buildIssuance beneficiaries amount =
      if beneficiaries = [] then .error .noBeneficiaries
      else if fit : (issuanceOutputs beneficiaries amount.toUInt64).length < placeBound then
        if coinBound ≤ (issuanceBody beneficiaries amount.toUInt64 fit).outputSum then .error .overflow
        else .ok (.ofBody (issuanceBody beneficiaries amount.toUInt64 fit))
      else .error .overflow := by
  simp only [buildIssuance, ofInt64_of_nonneg nonneg]
  rfl

/-- An issuance is built for a whole amount and at least one beneficiary, as long as all of it stays
in bounds. -/
theorem buildIssuance_eq_ok_iff {tx : Transaction} :
    buildIssuance beneficiaries amount = .ok tx ↔
      0 ≤ amount ∧ beneficiaries ≠ [] ∧ amount.toNatClampNeg * beneficiaries.length < coinBound ∧
        ∃ fit, tx = .ofBody (issuanceBody beneficiaries amount.toUInt64 fit) := by
  by_cases nonneg : 0 ≤ amount
  · simp only [buildIssuance_eq nonneg, outputSum_issuanceBody nonneg]
    by_cases none : beneficiaries = []
    · simp [none]
    · by_cases fit : (issuanceOutputs beneficiaries amount.toUInt64).length < placeBound
      · by_cases excess : coinBound ≤ amount.toNatClampNeg * beneficiaries.length
        · simp [none, fit, excess, Nat.not_lt_of_le excess]
        · simp [none, fit, excess, nonneg, Nat.lt_of_not_le excess, eq_comm]
      · simp [none, fit]
  · simp [buildIssuance, ofInt64_of_neg (Int64.not_le.1 nonneg), nonneg]

/-- What matters of an issuance of so many coins to each of its beneficiaries. -/
structure Mints (tx : Transaction) (beneficiaries : List Hash) (coins : Nat) : Prop where
  schema : tx.body.checkSchema = .ok ()
  coinbase : tx.body.isCoinbase = true
  keyed : tx.body.KeysOnCurve
  bounded : tx.body.outputSum < coinBound
  pays : ∀ owner, total (tx.body.outputs.map (Output.worthTo owner)) =
    coins * occurrences owner beneficiaries

theorem mints_of_buildIssuance {tx : Transaction}
    (built : buildIssuance beneficiaries amount = .ok tx) :
    Mints tx beneficiaries amount.toNatClampNeg := by
  obtain ⟨nonneg, some, bounded, fit, rfl⟩ := buildIssuance_eq_ok_iff.1 built
  refine ⟨checkSchema_issuanceBody some, isCoinbase_issuanceBody, keysOnCurve_issuanceBody, ?_, ?_⟩
  · rwa [← outputSum_issuanceBody nonneg fit] at bounded
  · intro owner
    rw [← Int64.toNat_toUInt64_of_le nonneg]
    exact total_issuanceOutputs_worthTo _ _ owner

end Building

end CoinLedger
