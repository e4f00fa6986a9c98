import CoinLedger.Proofs.Transaction.Payload

/-!
What a signature authorizes. Main statement: two bodies with the same signed bytes spend and pay the
same, or a boundary between two covered texts has moved; and with ids and addresses as the ledger
makes them, only the boundary between the last index and the first value can move. Pairs of bodies
at the end show that no less can be asked of the spellings.
-/

namespace CoinLedger

namespace Body

/-- The outpoints name padded ids, none of which after the first can be taken for a payment, and the
outputs pay addresses. -/
structure Plain (b : Body) : Prop where
  ids : ∀ o ∈ b.outpoints, o.isCoinbase = false → o.hash.Padded Hash.idSize
  owners : ∀ p ∈ b.outputs, p.owner.Sized Hash.addressSize
  telling : ∀ o ∈ b.outpoints.tail, ¬ o.hash.ReadsAsPayment

theorem outpoints_of_coinbase {b : Body} (schema : b.checkSchema = .ok ())
    (coinbase : b.isCoinbase = true) : ∃ o, b.outpoints = [o] ∧ o.isCoinbase = true := by
  obtain ⟨o, inputs, coinbase⟩ := (isCoinbase_iff schema).1 coinbase
  exact ⟨o, by rw [outpoints, inputs]; rfl, coinbase⟩

theorem outpoints_of_spend {b : Body} (schema : b.checkSchema = .ok ()) (plain : b.Plain)
    (spend : b.isCoinbase = false) :
    ∃ o os, b.outpoints = o :: os ∧ 0 ≤ o.index ∧ o.hash.Padded Hash.idSize ∧
      ∀ q ∈ os, q.Following := by
  have nonneg : ∀ o ∈ b.outpoints, 0 ≤ o.index := by
    intro o member
    obtain ⟨i, input, rfl⟩ := List.mem_map.1 member
    exact (index_nonneg_of_spend schema spend input).1
  have padded : ∀ o ∈ b.outpoints, o.hash.Padded Hash.idSize := by
    intro o member
    refine plain.ids o member (Bool.eq_false_iff.2 fun coinbase => ?_)
    have index := nonneg o member
    rw [index_of_coinbase coinbase] at index
    exact absurd index (by decide)
  have telling := plain.telling
  cases listed : b.outpoints with
  | nil => exact absurd (List.map_eq_nil_iff.1 listed) (checkSchema_eq_ok_iff.1 schema).2.2.1
  | cons o os =>
    rw [listed] at nonneg padded telling
    refine ⟨o, os, rfl, nonneg o List.mem_cons_self, padded o List.mem_cons_self, ?_⟩
    intro q member
    exact ⟨nonneg q (List.mem_cons_of_mem o member), padded q (List.mem_cons_of_mem o member),
      telling q member⟩

theorem sameButDigits_of_payload {a b : Body} (schemaA : a.checkSchema = .ok ())
    (schemaB : b.checkSchema = .ok ()) (plainA : a.Plain) (plainB : b.Plain)
    (same : a.signingPayload = b.signingPayload) :
    SameButDigits a.outpoints a.outputs b.outpoints b.outputs := by
  have paidA := plainA.owners
  have paidB := plainB.owners
  obtain ⟨p, ps, outputsA⟩ :=
    List.exists_cons_of_ne_nil (checkSchema_eq_ok_iff.1 schemaA).2.2.2.1
  obtain ⟨p', ps', outputsB⟩ :=
    List.exists_cons_of_ne_nil (checkSchema_eq_ok_iff.1 schemaB).2.2.2.1
  rw [signingPayload, signingPayload, signingPayload_eq, signingPayload_eq] at same
  rw [outputsA, outputsB] at same ⊢
  rw [outputsA] at paidA
  rw [outputsB] at paidB
  cases makesA : a.isCoinbase with
  | true =>
    obtain ⟨o, listedA, coinbaseA⟩ := outpoints_of_coinbase schemaA makesA
    cases makesB : b.isCoinbase with
    | true =>
      obtain ⟨o', listedB, coinbaseB⟩ := outpoints_of_coinbase schemaB makesB
      cases OutPoint.eq_of_coinbase coinbaseA coinbaseB
      rw [listedA, listedB] at same ⊢
      cases outputs_injective paidA paidB (List.append_cancel_left same)
      exact ⟨[], o.hash, o.index, o.index, p.value, p.value, p.owner, ps, rfl, rfl, rfl, rfl, rfl⟩
    | false =>
      obtain ⟨o', os', listedB, _, padded, _⟩ := outpoints_of_spend schemaB plainB makesB
      rw [listedA, listedB] at same
      simp only [List.flatMap_cons, List.append_assoc] at same
      exact absurd same (coinbase_ne_spend coinbaseA padded _ _)
  | false =>
    obtain ⟨o, os, listedA, nonneg, padded, following⟩ := outpoints_of_spend schemaA plainA makesA
    cases makesB : b.isCoinbase with
    | true =>
      obtain ⟨o', listedB, coinbaseB⟩ := outpoints_of_coinbase schemaB makesB
      rw [listedA, listedB] at same
      simp only [List.flatMap_cons, List.append_assoc] at same
      exact absurd same.symm (coinbase_ne_spend coinbaseB padded _ _)
    | false =>
      obtain ⟨o', os', listedB, nonneg', padded', following'⟩ :=
        outpoints_of_spend schemaB plainB makesB
      rw [listedA, listedB] at same ⊢
      rw [List.flatMap_cons (f := OutPoint.signedBytes), List.append_assoc,
        List.flatMap_cons (f := OutPoint.signedBytes), List.append_assoc] at same
      obtain ⟨_, hash, tails⟩ := outpoint_outpoint (c := []) (d := []) .nil .nil padded padded' same
      exact sameButDigits_of_following paidA paidB following following' hash nonneg nonneg' tails

/-- A signature authorizes the bytes that it covers, and these determine a payment as far as the
joined texts can be taken apart. Two bodies with the same signed bytes agree on what is spent and
paid, or at the first covered text in which they differ one text is the start of the other. With
plain hashes only the last index and the first value can differ, by how they share their digits: if
either is the same, everything is. -/
theorem signed_alike {a b : Body} (schemaA : a.checkSchema = .ok ())
    (schemaB : b.checkSchema = .ok ()) (same : a.signingPayload = b.signingPayload) :
    ((a.outpoints = b.outpoints ∧ a.outputs = b.outputs) ∨
      ∃ f g, FirstDiffer (signingFields a.outpoints a.outputs)
          (signingFields b.outpoints b.outputs) f g ∧
        (Text.utf8 f <+: Text.utf8 g ∨ Text.utf8 g <+: Text.utf8 f)) ∧
    (a.Plain → b.Plain →
      SameButDigits a.outpoints a.outputs b.outpoints b.outputs ∧
      (a.outpoints.getLast? = b.outpoints.getLast? ∨ a.outputs.head? = b.outputs.head? →
        a.outpoints = b.outpoints ∧ a.outputs = b.outputs)) := by
  refine ⟨?_, fun plainA plainB => ?_⟩
  · have filled : ∀ {os : List OutPoint} {ps : List Output}, ∀ f ∈ signingFields os ps,
        Text.utf8 f ≠ [] := fun f member => Text.utf8_ne_nil (signingFields_ne_empty _ _ f member)
    rcases eq_or_firstDiffer filled filled same with equal | differ
    · exact .inl (signingFields_injective equal)
    · exact .inr differ
  · have agree := sameButDigits_of_payload schemaA schemaB plainA plainB same
    exact ⟨agree, agree.eq⟩

/-- The body that spends some outpoints with one key and signature for all, nothing but zeros. -/
def unlockedByZeros (outpoints : List OutPoint) (outputs : List Output)
    (fit : outputs.length < placeBound) : Body where
  version := protocolVersion
  inputs := outpoints.map fun o =>
    ⟨o, some ⟨⟨List.replicate 32 0, rfl⟩, ⟨List.replicate 64 0, rfl⟩⟩⟩
  outputs := outputs
  lockTime := 0
  outputs_fit := fit

def zeroId : Hash := .ofBytes (List.replicate 32 0) (by decide)

def zeroAddress : Hash := .ofBytes (List.replicate 20 0) (by decide)

/-- One payment of 3 out of place 12. -/
def threeOfTwelve : Body := unlockedByZeros [⟨zeroId, 12⟩] [⟨3, zeroAddress⟩] (by decide)

/-- One payment of 23 out of place 1. -/
def twentyThreeOfOne : Body := unlockedByZeros [⟨zeroId, 1⟩] [⟨23, zeroAddress⟩] (by decide)

theorem plain_single (i : Int64) (v : UInt64)
    (fit : [Output.mk v zeroAddress].length < placeBound) :
    (unlockedByZeros [⟨zeroId, i⟩] [⟨v, zeroAddress⟩] fit).Plain := by
  have id : zeroId.Padded Hash.idSize := Hash.padded_ofBytes (List.replicate 32 0) (by decide)
  have address : zeroAddress.Padded Hash.addressSize :=
    Hash.padded_ofBytes (List.replicate 20 0) (by decide)
  refine ⟨?_, ?_, fun o member => nomatch member⟩
  · intro o member _
    cases List.mem_singleton.1 member
    exact id
  · intro p member
    cases List.mem_singleton.1 member
    exact address.sized

theorem signed_alike_digits :
    threeOfTwelve.checkSchema = .ok () ∧ twentyThreeOfOne.checkSchema = .ok () ∧
      threeOfTwelve.signingPayload = twentyThreeOfOne.signingPayload ∧
      SameButDigits threeOfTwelve.outpoints threeOfTwelve.outputs
        twentyThreeOfOne.outpoints twentyThreeOfOne.outputs := by
  have same : threeOfTwelve.signingPayload = twentyThreeOfOne.signingPayload := by decide +kernel
  refine ⟨rfl, rfl, same, ?_⟩
  exact ((signed_alike rfl rfl same).2 (plain_single 12 3 (by decide))
    (plain_single 1 23 (by decide))).1

/-- A padded id that can be taken for a payment: 23456789012, the script type, and the symbols of
an address of zeros. -/
def paymentLike : Hash :=
  .ofBytes ([219, 126, 57, 235, 191, 61, 211, 93, 143, 216, 242, 135] ++ List.replicate 20 0)
    (by decide)

/-- An id without its padding, which starts with the digit 2. -/
def twoThenZeros : Hash :=
  ⟨"2AAAAAAAAAAAAAAAAAAAAAAAAAAAAAAAAAAAAAAAAAA", 216 :: List.replicate 31 0, rfl, by decide⟩

/-- An id without its padding, which ends with the digit 4. -/
def zerosThenFour : Hash :=
  ⟨"AAAAAAAAAAAAAAAAAAAAAAAAAAAAAAAAAAAAAAAAAA4", List.replicate 31 0 ++ [14], rfl, by decide⟩

/-- Both bodies have the right form and the same signed bytes, but not the same spends and
payments. -/
structure SignedApart (a b : Body) : Prop where
  left : a.checkSchema = .ok ()
  right : b.checkSchema = .ok ()
  payload : a.signingPayload = b.signingPayload
  apart : ¬ (a.outpoints = b.outpoints ∧ a.outputs = b.outputs)

/-- One signature can fit two payments. Plain bodies can differ in the last index and the first
value. Others can differ although these two are the same: if ids have another size, or no padding,
or if addresses have another size, or if an id can be taken for a payment. -/
theorem one_signature_two_payments :
    SignedApart threeOfTwelve twentyThreeOfOne ∧
    SignedApart
      (unlockedByZeros [⟨zeroId, 1⟩, ⟨.ofBytes [219, 126, 57, 0, 0] (by decide), 5⟩]
        [⟨7, zeroAddress⟩] (by decide))
      (unlockedByZeros [⟨zeroId, 12345⟩, ⟨.ofBytes [0, 0] (by decide), 5⟩]
        [⟨7, zeroAddress⟩] (by decide)) ∧
    SignedApart
      (unlockedByZeros [⟨zeroId, 1⟩, ⟨twoThenZeros, 46⟩, ⟨zeroId, 9⟩] [⟨7, zeroAddress⟩]
        (by decide))
      (unlockedByZeros [⟨zeroId, 12⟩, ⟨zerosThenFour, 6⟩, ⟨zeroId, 9⟩] [⟨7, zeroAddress⟩]
        (by decide)) ∧
    SignedApart
      (unlockedByZeros [⟨zeroId, 1⟩]
        [⟨7, .ofBytes [0, 0, 0] (by decide)⟩, ⟨888, .ofBytes [0, 0, 0] (by decide)⟩] (by decide))
      (unlockedByZeros [⟨zeroId, 1⟩]
        [⟨7, .ofBytes [0, 0, 0, 243, 207, 15, 216, 242, 135, 0, 0, 0] (by decide)⟩] (by decide)) ∧
    SignedApart
      (unlockedByZeros [⟨zeroId, 1⟩, ⟨paymentLike, 1⟩] [⟨23456789012, zeroAddress⟩] (by decide))
      (unlockedByZeros [⟨zeroId, 1⟩]
        [⟨23456789012, zeroAddress⟩, ⟨123456789012, zeroAddress⟩] (by decide)) := by
  refine ⟨?_, ?_, ?_, ?_, ?_⟩
  all_goals exact ⟨rfl, rfl, by decide +kernel, by decide +kernel⟩

end Body

end CoinLedger
