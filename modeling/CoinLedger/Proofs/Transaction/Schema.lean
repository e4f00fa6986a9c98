import CoinLedger.Proofs.Ledger.Reference

/-!
The form of a body as a condition without order. Main statement: a body of the right form makes
money exactly when its one input is the coinbase outpoint without a proof; the inputs of every other
body show a proof and name a place.
-/

namespace CoinLedger.Body

/-- The right form of one of `count` inputs. -/
def InputFormed (count : Nat) (i : Input) : Prop :=
  if i.outpoint.isCoinbase then i.unlock = none ∧ count = 1
  else 0 ≤ i.outpoint.index ∧ i.unlock ≠ none

theorem checkInput_eq_ok_iff {count : Nat} (place : Nat) {i : Input} :
    checkInput count place i = .ok () ↔ InputFormed count i := by
  unfold checkInput InputFormed
  cases coinbase : i.outpoint.isCoinbase with
  | true =>
    cases unlock : i.unlock with
    | none => by_cases alone : count = 1 <;> simp [alone]
    | some u => simp
  | false =>
    by_cases negative : i.outpoint.index < 0
    · simp [negative, Int64.not_le.2 negative]
    · cases unlock : i.unlock with
      | none => simp [negative]
      | some u => simp [negative, Int64.not_lt.1 negative]

theorem checkInputs_eq_ok_iff {count : Nat} (place : Nat) {inputs : List Input} :
    checkInputs count place inputs = .ok () ↔ ∀ i ∈ inputs, InputFormed count i := by
  induction inputs generalizing place with
  | nil => simp [checkInputs]
  | cons i rest ih =>
    rw [List.forall_mem_cons, ← ih (place + 1), ← checkInput_eq_ok_iff place]
    rw [checkInputs]
    cases checkInput count place i with
    | error fault => exact ⟨(nomatch ·), fun h => nomatch h.1⟩
    | ok _ => exact ⟨fun h => ⟨rfl, h⟩, fun h => h.2⟩

theorem checkSchema_eq_ok_iff {b : Body} :
    b.checkSchema = .ok () ↔
      b.version = protocolVersion ∧ b.lockTime = 0 ∧ b.inputs ≠ [] ∧ b.outputs ≠ [] ∧
        ∀ i ∈ b.inputs, InputFormed b.inputs.length i := by
  rw [← checkInputs_eq_ok_iff 0]
  unfold checkSchema
  by_cases version : b.version = protocolVersion
  · by_cases lockTime : b.lockTime = 0
    · by_cases inputs : b.inputs = []
      · simp [version, lockTime, inputs]
      · by_cases outputs : b.outputs = [] <;> simp [version, lockTime, inputs, outputs]
    · simp [version, lockTime]
  · simp [version]

theorem isCoinbase_iff {b : Body} (schema : b.checkSchema = .ok ()) :
    b.isCoinbase = true ↔ ∃ o, b.inputs = [⟨o, none⟩] ∧ o.isCoinbase = true := by
  obtain ⟨_, _, _, _, formed⟩ := checkSchema_eq_ok_iff.1 schema
  unfold isCoinbase
  rw [List.any_eq_true]
  constructor
  · rintro ⟨⟨o, unlock⟩, member, coinbase⟩
    obtain ⟨missing, coinbase⟩ := Bool.and_eq_true_iff.1 coinbase
    cases Option.isNone_iff_eq_none.1 missing
    have form := formed _ member
    rw [InputFormed, if_pos coinbase] at form
    obtain ⟨i, one⟩ := List.length_eq_one_iff.1 form.2
    rw [one] at member ⊢
    cases List.mem_singleton.1 member
    exact ⟨o, rfl, coinbase⟩
  · rintro ⟨o, inputs, coinbase⟩
    refine ⟨⟨o, none⟩, by rw [inputs]; exact List.mem_singleton_self _, ?_⟩
    simp [Input.isCoinbase, coinbase]

theorem index_of_coinbase {o : OutPoint} (h : o.isCoinbase = true) : o.index = -1 :=
  eq_of_beq (Bool.and_eq_true_iff.1 h).1

theorem index_neg_of_coinbase {b : Body} (schema : b.checkSchema = .ok ())
    (coinbase : b.isCoinbase = true) {o : OutPoint} (member : o ∈ b.outpoints) : o.index < 0 := by
  obtain ⟨p, inputs, coinbase⟩ := (isCoinbase_iff schema).1 coinbase
  simp only [outpoints, inputs, List.map_cons, List.map_nil, List.mem_singleton] at member
  rw [member, index_of_coinbase coinbase]
  decide

theorem index_nonneg_of_spend {b : Body} (schema : b.checkSchema = .ok ())
    (spend : b.isCoinbase = false) {i : Input} (member : i ∈ b.inputs) :
    0 ≤ i.outpoint.index ∧ i.unlock ≠ none := by
  have form := (checkSchema_eq_ok_iff.1 schema).2.2.2.2 i member
  unfold InputFormed at form
  split at form
  · next coinbase =>
    have : i.isCoinbase = true := by simp [Input.isCoinbase, form.1, coinbase]
    have : b.isCoinbase = true := List.any_eq_true.2 ⟨i, member, this⟩
    rw [spend] at this
    exact nomatch this
  · exact form

end CoinLedger.Body
