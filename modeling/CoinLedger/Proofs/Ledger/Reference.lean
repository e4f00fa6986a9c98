import CoinLedger.Ledger.Basic
import CoinLedger.Proofs.Sums

/-!
What a log says, without any index: which outputs it holds, which of them its inputs claim, and what
an owner is owed. Main statement: in a log whose ids are told apart by their bytes, an outpoint
names at most one output.
-/

namespace CoinLedger

namespace OutPoint

theorem key_eq_iff {o p : OutPoint} : Keyed.key o = Keyed.key p ↔ o.Same p := by
  simp [Keyed.key, Same, Hash.canonicalText_eq_iff, Int64.toInt_inj]

theorem Same.refl (o : OutPoint) : o.Same o := ⟨rfl, rfl⟩

theorem Same.symm {o p : OutPoint} (h : o.Same p) : p.Same o := ⟨h.1.symm, h.2.symm⟩

theorem Same.trans {o p q : OutPoint} (h : o.Same p) (k : p.Same q) : o.Same q :=
  ⟨h.1.trans k.1, h.2.trans k.2⟩

theorem same_comm {o p : OutPoint} : o.Same p ↔ p.Same o := ⟨Same.symm, Same.symm⟩

/-- The outpoint names an output of a transaction: the hash by its bytes, the index as the place. -/
def Names (o : OutPoint) (tx : Transaction) (output : Output) : Prop :=
  o.hash.bytes = tx.id.bytes ∧
    ∃ place : Nat, o.index.toInt = place ∧ tx.body.outputs[place]? = some output

end OutPoint

/-- What an output is worth to an owner. -/
def Output.worthTo (owner : Hash) (o : Output) : Nat :=
  if o.owner.bytes = owner.bytes then o.value.toNat else 0

def Transaction.payments (tx : Transaction) : List (OutPoint × Output) :=
  tx.body.outputs.zipIdx.map fun e => (Book.outPointAt tx.id e.2, e.1)

namespace Log

/-- The outputs of a log in order, each with its outpoint. -/
def payments (log : List Transaction) : List (OutPoint × Output) :=
  log.flatMap Transaction.payments

/-- The outpoints that the inputs of a log name, in order. -/
def claims (log : List Transaction) : List OutPoint := log.flatMap fun tx => tx.body.outpoints

/-- The output that an outpoint names. -/
def outputAt? (log : List Transaction) (o : OutPoint) : Option Output :=
  ((payments log).find? fun e => o.Same e.1).map Prod.snd

/-- An input of the log names the outpoint. -/
def Claimed (log : List Transaction) (o : OutPoint) : Prop := ∃ p ∈ claims log, p.Same o

instance (log : List Transaction) (o : OutPoint) : Decidable (Claimed log o) :=
  inferInstanceAs (Decidable (∃ p ∈ claims log, p.Same o))

/-- Under the mode, the outpoint was used up. -/
def Consumed (mode : Accounting) (log : List Transaction) (o : OutPoint) : Prop :=
  mode = .strictUtxo ∧ Claimed log o

instance (mode : Accounting) (log : List Transaction) (o : OutPoint) :
    Decidable (Consumed mode log o) := inferInstanceAs (Decidable (_ ∧ _))

/-- The record that a log makes of an outpoint. -/
def recordAt? (mode : Accounting) (log : List Transaction) (o : OutPoint) : Option OutputRecord :=
  (outputAt? log o).map fun output => ⟨output.owner, output.value, decide (Consumed mode log o)⟩

/-- The worth of the outputs that are not used up. -/
def openWorth (mode : Accounting) (log : List Transaction) (worth : Output → Nat) : Nat :=
  total (((payments log).filter fun e => ¬Consumed mode log e.1).map fun e => worth e.2)

/-- What an owner is owed: the values of all outputs to the owner that are not used up. -/
def owed (mode : Accounting) (log : List Transaction) (owner : Hash) : Nat :=
  openWorth mode log (Output.worthTo owner)

/-- The worth of the outputs that the inputs of a body name. -/
def claimedWorth (log : List Transaction) (b : Body) (worth : Output → Nat) : Nat :=
  total (b.outpoints.map fun o => ((outputAt? log o).map worth).getD 0)

/-- The values of the outputs that the inputs of a body name. -/
def inputSum (log : List Transaction) (b : Body) : Nat :=
  claimedWorth log b fun output => output.value.toNat

def Distinct (log : List Transaction) : Prop := log.Pairwise fun s t => s.id.bytes ≠ t.id.bytes

end Log

theorem toInt_ofNat_place {place : Nat} (h : place < placeBound) :
    (Int64.ofNat place).toInt = place := Int64.toInt_ofNat_of_lt h

namespace Transaction

theorem mem_payments_iff {tx : Transaction} {o : OutPoint} {output : Output} :
    (o, output) ∈ tx.payments ↔
      ∃ place, o = Book.outPointAt tx.id place ∧ tx.body.outputs[place]? = some output := by
  simp only [payments, List.mem_map, Prod.exists, List.mem_zipIdx_iff_getElem?, Prod.mk.injEq]
  constructor
  · rintro ⟨output, place, h, rfl, rfl⟩
    exact ⟨place, rfl, h⟩
  · rintro ⟨place, rfl, h⟩
    exact ⟨output, place, h, rfl, rfl⟩

theorem place_lt {tx : Transaction} {place : Nat} {output : Output}
    (h : tx.body.outputs[place]? = some output) : place < placeBound := by
  have bound := (List.getElem?_eq_some_iff.1 h).1
  exact Nat.lt_trans bound tx.body.outputs_fit

theorem hash_of_mem_payments {tx : Transaction} {e : OutPoint × Output} (h : e ∈ tx.payments) :
    e.1.hash = tx.id := by
  obtain ⟨place, same, _⟩ := mem_payments_iff.1 h
  rw [same]
  rfl

theorem names_iff {tx : Transaction} {o : OutPoint} {output : Output} :
    o.Names tx output ↔ ∃ e ∈ tx.payments, o.Same e.1 ∧ e.2 = output := by
  constructor
  · rintro ⟨hash, place, index, found⟩
    refine ⟨(Book.outPointAt tx.id place, output), mem_payments_iff.2 ⟨place, rfl, found⟩, ?_, rfl⟩
    refine ⟨hash, Int64.toInt_inj.1 ?_⟩
    rw [index]
    exact (toInt_ofNat_place (place_lt found)).symm
  · rintro ⟨⟨p, output⟩, member, same, rfl⟩
    obtain ⟨place, rfl, found⟩ := mem_payments_iff.1 member
    refine ⟨same.1, place, ?_, found⟩
    rw [same.2]
    exact toInt_ofNat_place (place_lt found)

theorem payments_pairwise (tx : Transaction) :
    tx.payments.Pairwise fun e f => ¬e.1.Same f.1 := by
  unfold payments
  rw [List.pairwise_map, List.pairwise_iff_getElem]
  intro i j hi hj lt same
  simp only [List.length_zipIdx] at hi hj
  simp only [List.getElem_zipIdx, Nat.zero_add] at same
  have fit := tx.body.outputs_fit
  -- two places below the bound are told apart by their indices
  have index := congrArg Int64.toInt same.2
  simp only [Book.outPointAt] at index
  rw [toInt_ofNat_place (by omega), toInt_ofNat_place (by omega)] at index
  omega

end Transaction

namespace Log

theorem payments_append (log more : List Transaction) :
    payments (log ++ more) = payments log ++ payments more := List.flatMap_append

theorem claims_append (log more : List Transaction) :
    claims (log ++ more) = claims log ++ claims more := List.flatMap_append

@[simp] theorem payments_singleton (tx : Transaction) : payments [tx] = tx.payments := by
  simp [payments]

@[simp] theorem claims_singleton (tx : Transaction) : claims [tx] = tx.body.outpoints := by
  simp [claims]

theorem claimed_snoc_iff {log : List Transaction} {tx : Transaction} {o : OutPoint} :
    Claimed (log ++ [tx]) o ↔ Claimed log o ∨ ∃ p ∈ tx.body.outpoints, p.Same o := by
  simp only [Claimed, claims_append, claims_singleton, List.mem_append]
  constructor
  · rintro ⟨p, member | member, same⟩
    · exact .inl ⟨p, member, same⟩
    · exact .inr ⟨p, member, same⟩
  · rintro (⟨p, member, same⟩ | ⟨p, member, same⟩)
    · exact ⟨p, .inl member, same⟩
    · exact ⟨p, .inr member, same⟩

theorem Claimed.congr {log : List Transaction} {o p : OutPoint} (h : Claimed log o)
    (same : o.Same p) : Claimed log p := by
  obtain ⟨q, member, hq⟩ := h
  exact ⟨q, member, hq.trans same⟩

theorem outputAt?_congr (log : List Transaction) {o p : OutPoint} (h : o.Same p) :
    outputAt? log o = outputAt? log p := by
  have tests : (fun e : OutPoint × Output => decide (o.Same e.1)) =
      fun e => decide (p.Same e.1) := by
    funext e
    exact decide_eq_decide.2 ⟨h.symm.trans, h.trans⟩
  rw [outputAt?, outputAt?, tests]

theorem outputAt?_append (log more : List Transaction) (o : OutPoint) :
    outputAt? (log ++ more) o = (outputAt? log o).or (outputAt? more o) := by
  unfold outputAt?
  rw [payments_append, List.find?_append]
  cases (payments log).find? fun e => o.Same e.1 <;> rfl

theorem outputAt?_append_of_some {log : List Transaction} {o : OutPoint} {output : Output}
    (h : outputAt? log o = some output) (more : List Transaction) :
    outputAt? (log ++ more) o = some output := by
  rw [outputAt?_append, h]
  rfl

theorem mem_of_outputAt? {log : List Transaction} {o : OutPoint} {output : Output}
    (h : outputAt? log o = some output) : ∃ e ∈ payments log, o.Same e.1 ∧ e.2 = output := by
  obtain ⟨e, found, rfl⟩ := Option.map_eq_some_iff.1 h
  have same := List.find?_some found
  exact ⟨e, List.mem_of_find?_eq_some found, by simpa using same, rfl⟩

theorem names_of_outputAt? {log : List Transaction} {o : OutPoint} {output : Output}
    (h : outputAt? log o = some output) : ∃ tx ∈ log, o.Names tx output := by
  obtain ⟨e, member, same, rfl⟩ := mem_of_outputAt? h
  obtain ⟨tx, logged, member⟩ := List.mem_flatMap.1 member
  exact ⟨tx, logged, Transaction.names_iff.2 ⟨e, member, same, rfl⟩⟩

theorem outputAt?_eq_none_iff {log : List Transaction} {o : OutPoint} :
    outputAt? log o = none ↔ ∀ e ∈ payments log, ¬o.Same e.1 := by
  simp [outputAt?]

theorem hash_mem_of_mem_payments {log : List Transaction} {e : OutPoint × Output}
    (h : e ∈ payments log) : ∃ tx ∈ log, e.1.hash = tx.id := by
  obtain ⟨tx, logged, member⟩ := List.mem_flatMap.1 h
  exact ⟨tx, logged, Transaction.hash_of_mem_payments member⟩

theorem distinct_snoc_iff {log : List Transaction} {tx : Transaction} :
    Distinct (log ++ [tx]) ↔ Distinct log ∧ ∀ t ∈ log, t.id.bytes ≠ tx.id.bytes := by
  simp [Distinct, List.pairwise_append]

theorem Distinct.payments {log : List Transaction} (h : Distinct log) :
    (payments log).Pairwise fun e f => ¬e.1.Same f.1 := by
  induction log with
  | nil => exact .nil
  | cons tx log ih =>
    obtain ⟨first, rest⟩ := List.pairwise_cons.1 h
    refine List.pairwise_append.2 ⟨tx.payments_pairwise, ih rest, ?_⟩
    intro e he f hf same
    obtain ⟨t, logged, hash⟩ := hash_mem_of_mem_payments hf
    refine first t logged ?_
    rw [← hash, ← Transaction.hash_of_mem_payments he]
    exact same.1

theorem Distinct.filter_payments {log : List Transaction} (h : Distinct log)
    {e : OutPoint × Output} (member : e ∈ Log.payments log) {o : OutPoint} (same : o.Same e.1) :
    (Log.payments log).filter (fun f => o.Same f.1) = [e] := by
  apply filter_eq_singleton member same
  exact h.payments.imp fun apart both => apart (both.1.symm.trans both.2)

theorem Distinct.outputAt?_of_mem {log : List Transaction} (h : Distinct log)
    {e : OutPoint × Output} (member : e ∈ Log.payments log) {o : OutPoint} (same : o.Same e.1) :
    outputAt? log o = some e.2 := by
  rw [outputAt?, ← List.head?_filter, h.filter_payments member same]
  rfl

theorem Distinct.outputAt?_eq_some_iff {log : List Transaction} (h : Distinct log) {o : OutPoint}
    {output : Output} : outputAt? log o = some output ↔ ∃ tx ∈ log, o.Names tx output := by
  constructor
  · exact names_of_outputAt?
  · rintro ⟨tx, logged, names⟩
    obtain ⟨e, member, same, rfl⟩ := Transaction.names_iff.1 names
    exact h.outputAt?_of_mem (List.mem_flatMap.2 ⟨tx, logged, member⟩) same

end Log

end CoinLedger
