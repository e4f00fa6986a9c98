import CoinLedger.Proofs.Ledger.Replay
import CoinLedger.Proofs.Ledger.Faithful
import CoinLedger.Proofs.Table

/-!
A strict log read as if spending cost nothing. Whatever the strict check accepts, the other one
accepts, for it looks at neither marks nor sums. Main statement: the log of a strict book, replayed
under running credit, leads to a book that differs from it in marks and balances alone, where every
owner has in addition all that was spent; or it stops, because such a balance is out of bounds.
-/

namespace CoinLedger

/-- The record with its mark taken off. -/
def OutputRecord.unmarked (r : OutputRecord) : OutputRecord := { r with spent := false }

namespace Validation

variable {lookup relaxed : OutPoint → Option OutputRecord} {mode : Accounting}

/-- Two views of the outputs that agree but for the marks. -/
def SameButMarks (lookup relaxed : OutPoint → Option OutputRecord) : Prop :=
  ∀ o, (relaxed o).map OutputRecord.unmarked = (lookup o).map OutputRecord.unmarked

theorem SameButMarks.refl (lookup : OutPoint → Option OutputRecord) : SameButMarks lookup lookup :=
  fun _ => rfl

theorem SameButMarks.valueOf_eq (same : SameButMarks lookup relaxed) (os : List OutPoint) :
    valueOf relaxed os = valueOf lookup os := by
  have value : ∀ view o, valueAt view o =
      (((view o).map OutputRecord.unmarked).map fun record => record.value.toNat).getD 0 := by
    intro view o
    rw [valueAt, Option.map_map]
    rfl
  have values : valueAt relaxed = valueAt lookup := by
    funext o
    rw [value, value, same]
  rw [valueOf, valueOf, values]

theorem SameButMarks.opens (same : SameButMarks lookup relaxed) {payload : List UInt8} {i : Input}
    {record : OutputRecord} (h : Opens lookup payload i record) :
    ∃ other, Opens relaxed payload i other := by
  obtain ⟨known, u, shown, owns, signed⟩ := h
  have found := same i.outpoint
  rw [known] at found
  obtain ⟨other, known', unmarked⟩ := Option.map_eq_some_iff.1 found
  refine ⟨other, known', u, shown, ?_, signed⟩
  -- the owner of a record does not change with the mark
  have owner : other.unmarked.owner = record.unmarked.owner := by rw [unmarked]
  exact owns.trans (congrArg Hash.bytes owner.symm)

/-- What either mode asks of a spend, running credit asks of it, whatever the marks say. -/
theorem SpendSound.relax {b : Body} (h : SpendSound lookup mode b)
    (same : SameButMarks lookup relaxed) : SpendSound relaxed .runningCredit b where
  inputs := by
    refine ⟨fun i member => ?_, nofun, nofun, nofun⟩
    obtain ⟨record, opens⟩ := h.inputs.opens i member
    exact same.opens opens
  bounded := by
    rw [same.valueOf_eq]
    exact h.bounded
  balanced := nofun

theorem validate_relaxed {tx : Transaction} {a : Accepted} (same : SameButMarks lookup relaxed)
    (h : validate tx lookup mode = .ok a) : validate tx relaxed .runningCredit = .ok a := by
  obtain ⟨schema, bounded, spend, rfl⟩ := validate_eq_ok_iff.1 h
  refine validate_eq_ok_iff.2 ⟨schema, bounded, fun isSpend => (spend isSpend).relax same, ?_⟩
  rw [same.valueOf_eq]

end Validation

namespace Book

open Validation (SameButMarks)

/-- The second book is what the first would be if no spend had marked an output; balances apart. -/
structure Uncharged (b c : Book) : Prop where
  mode : c.mode = .runningCredit
  log : c.log = b.log
  positions : c.positions = b.positions
  byOwner : c.byOwner = b.byOwner
  outputs : ∀ o, c.outputs.find? o = (b.outputs.find? o).map OutputRecord.unmarked

namespace Uncharged

variable {b c : Book} {tx : Transaction} {a : Accepted} {balances : Table Hash Nat}

theorem empty (mode : Accounting) : (empty mode).Uncharged (.empty .runningCredit) where
  mode := rfl
  log := rfl
  positions := rfl
  byOwner := rfl
  outputs _ := rfl

theorem sameButMarks (h : b.Uncharged c) : SameButMarks b.outputs.find? c.outputs.find? := by
  intro o
  rw [h.outputs, Option.map_map]
  rfl

theorem append (h : b.Uncharged c) (tx : Transaction) (consumed : List OutPoint)
    (balances uncharged : Table Hash Nat) :
    (b.append tx consumed balances).Uncharged (c.append tx consumed uncharged) where
  mode := h.mode
  log := congrArg (· ++ [tx]) h.log
  positions := by
    change c.positions.insert tx.id c.log.length = b.positions.insert tx.id b.log.length
    rw [h.positions, h.log]
  byOwner := by
    change tx.body.outputs.foldl (fun t o => noteOwner t tx.id o.owner) c.byOwner = _
    rw [h.byOwner]
    rfl
  outputs o := by
    have marks : ∀ r : OutputRecord,
        (if ∃ p ∈ consumed, p.Same o then { r with spent := true } else r).unmarked = r.unmarked := by
      intro r
      split <;> rfl
    change (tx.body.outputs.zipIdx.foldl (recordOutput tx.id) _).find? o =
      ((tx.body.outputs.zipIdx.foldl (recordOutput tx.id) _).find? o).map _
    rw [find?_recordOutputs, find?_recordOutputs, h.mode]
    cases Log.outputAt? [tx] o with
    | some output => rfl
    | none =>
      simp only [Option.map_none, Option.none_or, h.outputs]
      cases b.mode with
      | runningCredit => rfl
      | strictUtxo =>
        simp only [find?_markAll, Option.map_map]
        congr 1
        funext r
        exact (marks r).symm

/-- The replay takes the same step, unless a payment puts a balance out of bounds. -/
theorem step (h : b.Uncharged c) (accepts : b.Accepts tx a balances) :
    (∃ uncharged, c.Accepts tx a uncharged) ∨
      (c.positions.find? tx.id = none ∧ validate tx c.outputs.find? c.mode = .ok a ∧
        c.settle? a.consumed tx.body.outputs = none) := by
  have fresh : c.positions.find? tx.id = none := by
    rw [h.positions]
    exact accepts.fresh
  have checked : validate tx c.outputs.find? c.mode = .ok a := by
    rw [h.mode]
    exact Validation.validate_relaxed h.sameButMarks accepts.valid
  cases settled : c.settle? a.consumed tx.body.outputs with
  | some uncharged => exact .inl ⟨uncharged, fresh, checked, settled⟩
  | none => exact .inr ⟨fresh, checked, rfl⟩

end Uncharged

/-- Payments that do not go through show an owner who would be owed too much. -/
theorem Faithful.exists_owed_ge {b : Book} {tx : Transaction} (h : b.Faithful)
    (valid : Log.Valid b.mode b.log tx)
    (unsettled : b.settle? (Validation.consumedBy tx.body) tx.body.outputs = none) :
    ∃ owner, coinBound ≤ Log.owed b.mode (b.log ++ [tx]) owner := by
  apply Classical.byContradiction
  intro never
  have fits : ∀ owner, Log.owed b.mode (b.log ++ [tx]) owner < coinBound := fun owner =>
    Nat.lt_of_not_le fun excess => never ⟨owner, excess⟩
  obtain ⟨balances, settled⟩ := (h.settled_iff valid).2 fits
  rw [unsettled] at settled
  exact nomatch settled

/-- What came of the replay of a log under running credit: a book without charges, or an owner with
more than the bound. -/
def ReplaysUncharged (b : Book) : Prop :=
  (∃ c, replay .runningCredit b.log = .ok c ∧ b.Uncharged c ∧ c.Faithful) ∨
    (replay .runningCredit b.log = .error .overflow ∧
      ∃ owner, coinBound ≤ Log.owed .runningCredit b.log owner)

theorem ReplaysUncharged.append {b : Book} {tx : Transaction} {a : Accepted}
    {balances : Table Hash Nat} (h : b.ReplaysUncharged) (accepts : b.Accepts tx a balances) :
    (b.append tx a.consumed balances).ReplaysUncharged := by
  unfold ReplaysUncharged
  rw [append_log, replay_snoc]
  rcases h with ⟨c, replayed, uncharged, faithful⟩ | ⟨overflow, owner, excess⟩
  · rw [replayed]
    change (∃ d, (c.apply tx).map Prod.fst = .ok d ∧ _) ∨ ((c.apply tx).map Prod.fst = _ ∧ _)
    rcases uncharged.step accepts with ⟨settled, also⟩ | ⟨fresh, checked, unsettled⟩
    · left
      rw [also.apply_eq]
      exact ⟨_, rfl, uncharged.append tx a.consumed balances settled,
        faithful.append_of_accepts also⟩
    · right
      obtain ⟨valid, rfl⟩ := faithful.valid_iff.1 ⟨fresh, checked⟩
      have excess := faithful.exists_owed_ge valid unsettled
      rw [uncharged.log, uncharged.mode] at excess
      exact ⟨by simp [apply, fresh, checked, unsettled, Except.map], excess⟩
  · rw [overflow]
    exact .inr ⟨rfl, owner, Nat.le_trans excess (Log.owed_le_append _ _ owner)⟩

theorem replaysUncharged_after (mode : Accounting) (txs : List Transaction) :
    ((empty mode).after txs).ReplaysUncharged :=
  after_induction (fun _ _ _ _ replays accepts => replays.append accepts)
    (.inl ⟨_, rfl, .empty mode, faithful_empty _⟩) txs

/-- What an owner was paid with outputs that are marked as spent. -/
def spentWorth (b : Book) (owner : Hash) : Nat :=
  total (((b.outputs.entries.map Prod.snd).filter OutputRecord.spent).map (recordWorth owner))

/-- The records are those of the outputs of the log, one for each. -/
theorem Faithful.records_perm {b : Book} (h : b.Faithful) :
    (b.outputs.entries.map Prod.snd).Perm ((Log.payments b.log).map fun e =>
      ⟨e.2.owner, e.2.value, decide (Log.Consumed b.mode b.log e.1)⟩) := by
  let entry : OutPoint × Output → OutPoint × OutputRecord := fun e =>
    (e.1, ⟨e.2.owner, e.2.value, decide (Log.Consumed b.mode b.log e.1)⟩)
  have apart : ((Log.payments b.log).map entry).Pairwise fun e f => Keyed.key e.1 ≠ Keyed.key f.1 :=
    List.pairwise_map.2 (h.lawful.distinct.payments.imp fun differ key =>
      differ (OutPoint.key_eq_iff.1 key))
  have marks : ∀ {o p : OutPoint}, o.Same p →
      (Log.Consumed b.mode b.log o ↔ Log.Consumed b.mode b.log p) := fun same =>
    and_congr_right fun _ => ⟨fun claimed => claimed.congr same, fun claimed => claimed.congr same.symm⟩
  have values := Table.values_perm (t := b.outputs) apart ?_
  · rw [List.map_map] at values
    exact values
  · intro o record
    rw [h.outputs]
    constructor
    · intro known
      obtain ⟨output, found, rfl⟩ := Log.outputAt?_of_recordAt? known
      obtain ⟨e, member, same, rfl⟩ := Log.mem_of_outputAt? found
      refine ⟨entry e, List.mem_map_of_mem member, OutPoint.key_eq_iff.2 same, ?_⟩
      simp only [entry, marks same]
    · rintro ⟨_, member, key, rfl⟩
      obtain ⟨e, paid, rfl⟩ := List.mem_map.1 member
      have same := OutPoint.key_eq_iff.1 key
      rw [Log.recordAt?, h.lawful.distinct.outputAt?_of_mem paid same]
      simp only [entry, Option.map_some, marks same]

theorem Faithful.spentWorth_eq {b : Book} (h : b.Faithful) (owner : Hash) :
    b.spentWorth owner = total (((Log.payments b.log).filter fun e =>
      Log.Consumed b.mode b.log e.1).map fun e => e.2.worthTo owner) := by
  rw [spentWorth, total_perm ((h.records_perm.filter OutputRecord.spent).map (recordWorth owner)),
    List.filter_map, List.map_map]
  rfl

theorem Faithful.balance_add_spentWorth {b : Book} (h : b.Faithful) (owner : Hash) :
    b.balance owner + b.spentWorth owner = Log.owed .runningCredit b.log owner := by
  have split := total_filter_add_total_filter_not (Log.payments b.log)
    (fun e => Log.Consumed b.mode b.log e.1) fun e => e.2.worthTo owner
  rw [h.balances, h.spentWorth_eq, Log.owed, Log.owed, Log.openWorth_runningCredit, ← split,
    Nat.add_comm]
  simp only [Log.openWorth, decide_not]

/-- The replay of a strict log under running credit fails only for a balance out of bounds, and it does
exactly if some owner's balance and spent outputs add up to that. Else the book that it leads to has
the log, the places and the index of owners of the strict one, its records without their marks, and
balances to which nothing spent is missing. And a single check under running credit finds what the
strict one finds, whenever that accepts. -/
theorem strict_log_uncharged :
    (∀ txs,
      (∀ e, replay .runningCredit ((empty .strictUtxo).after txs).log = .error e →
        e = .overflow) ∧
      ((∃ c, replay .runningCredit ((empty .strictUtxo).after txs).log = .ok c) ↔
        ∀ owner, ((empty .strictUtxo).after txs).balance owner +
          ((empty .strictUtxo).after txs).spentWorth owner < coinBound) ∧
      ∀ c, replay .runningCredit ((empty .strictUtxo).after txs).log = .ok c →
        ((empty .strictUtxo).after txs).Uncharged c ∧
        ∀ owner, c.balance owner = ((empty .strictUtxo).after txs).balance owner +
          ((empty .strictUtxo).after txs).spentWorth owner) ∧
    ∀ tx lookup a, validate tx lookup .strictUtxo = .ok a →
      validate tx lookup .runningCredit = .ok a := by
  refine ⟨fun txs => ?_, fun tx lookup a accepted => ?_⟩
  · have faithful := faithful_after .strictUtxo txs
    have replays := replaysUncharged_after .strictUtxo txs
    generalize (empty .strictUtxo).after txs = b at *
    simp only [faithful.balance_add_spentWorth]
    rcases replays with ⟨c, replayed, uncharged, kept⟩ | ⟨overflow, owner, excess⟩
    · have balances : ∀ owner, c.balance owner = Log.owed .runningCredit b.log owner := by
        intro owner
        rw [kept.balances, uncharged.mode, uncharged.log]
      rw [replayed]
      refine ⟨nofun, ⟨fun _ owner => ?_, fun _ => ⟨c, rfl⟩⟩, ?_⟩
      · have lawful := kept.lawful.owed_lt owner
        rwa [uncharged.mode, uncharged.log] at lawful
      · rintro _ ⟨⟩
        exact ⟨uncharged, balances⟩
    · rw [overflow]
      refine ⟨?_, ⟨nofun, fun fits => ?_⟩, nofun⟩
      · rintro _ ⟨⟩
        rfl
      · exact absurd (fits owner) (Nat.not_lt_of_le excess)
  · exact Validation.validate_relaxed (.refl lookup) accepted

end Book

end CoinLedger
