import Mathlib.Data.List.Induction
import CoinLedger.Proofs.Ledger.Replay
import CoinLedger.Proofs.Ledger.Shuffle
import CoinLedger.Proofs.Service.Isolation

/-!
The order in which transactions arrive. Main statement: a log replayed in another order, in which
every spend still has its sources before it, leads to the same balances and records, unless a balance
goes out of bounds on the way. Under running credit that cannot happen, and under the strict mode not
if all money ever made is in bounds.
-/

namespace CoinLedger

namespace Log

variable {mode : Accounting} {log : List Transaction} {tx : Transaction}

/-- Every transaction of the log is valid after the ones before it. -/
def EachValid (mode : Accounting) (log : List Transaction) : Prop :=
  ∀ before tx later, log = before ++ tx :: later → Valid mode before tx

theorem eachValid_snoc_iff : EachValid mode (log ++ [tx]) ↔ EachValid mode log ∧ Valid mode log tx := by
  constructor
  · intro h
    refine ⟨fun before t later split => h before t (later ++ [tx]) ?_, h log tx [] rfl⟩
    rw [split, List.append_assoc]
    rfl
  · rintro ⟨valids, last⟩ before t later split
    rcases List.eq_nil_or_concat later with rfl | ⟨front, s, rfl⟩
    · obtain ⟨rfl, same⟩ := List.append_inj' split rfl
      cases same
      exact last
    · have shorter : log ++ [tx] = (before ++ t :: front) ++ [s] := by simpa using split
      exact valids before t front (List.append_inj' shorter rfl).1

theorem minted_append (log more : List Transaction) :
    minted (log ++ more) = minted log + minted more := by
  rw [minted, List.filter_append, List.map_append, total_append]
  rfl

/-- Under the strict mode all that is owed was made once. -/
theorem Valid.owed_snoc_le_minted (h : Valid .strictUtxo log tx) (lawful : Lawful .strictUtxo log)
    (owner : Hash) : owed .strictUtxo (log ++ [tx]) owner ≤ minted (log ++ [tx]) := by
  rw [← h.circulation_add_leftBehind lawful lawful.circulation_add_leftBehind]
  exact Nat.le_trans (owed_le_circulation _ _ owner) (Nat.le_add_right _ _)

/-- What bounds all sums from the outset: under running credit what is owed in the end, under the
strict mode what was made. -/
def Bounded (mode : Accounting) (log : List Transaction) : Prop :=
  match mode with
  | .runningCredit => ∀ owner, owed .runningCredit log owner < coinBound
  | .strictUtxo => minted log < coinBound

theorem Bounded.of_append {more : List Transaction} (h : Bounded mode (log ++ more)) :
    Bounded mode log := by
  cases mode with
  | runningCredit => exact fun owner => Nat.lt_of_le_of_lt (owed_le_append log more owner) (h owner)
  | strictUtxo =>
    rw [Bounded, minted_append] at h
    exact Nat.lt_of_le_of_lt (Nat.le_add_right _ _) h

theorem Bounded.owed_lt (h : Bounded mode (log ++ [tx])) (lawful : Lawful mode log)
    (valid : Valid mode log tx) (owner : Hash) : owed mode (log ++ [tx]) owner < coinBound := by
  cases mode with
  | runningCredit => exact h owner
  | strictUtxo => exact Nat.lt_of_le_of_lt (valid.owed_snoc_le_minted lawful owner) h

theorem Bounded.lawful (h : Bounded mode log) (valids : EachValid mode log) : Lawful mode log := by
  induction log using List.reverseRecOn with
  | nil => exact .nil
  | append_singleton log tx ih =>
    obtain ⟨valids, valid⟩ := eachValid_snoc_iff.1 valids
    have lawful := ih h.of_append valids
    exact .snoc lawful valid (h.owed_lt lawful valid)

end Log

namespace Book

variable {mode : Accounting} {log shuffled : List Transaction}

theorem replay_of_lawful (h : Log.Lawful mode log) :
    ∃ c, replay mode log = .ok c ∧ c.Faithful ∧ c.mode = mode ∧ c.log = log := by
  induction h with
  | nil => exact ⟨_, rfl, faithful_empty mode, rfl, rfl⟩
  | @snoc log tx _ valid fits ih =>
    obtain ⟨c, replayed, faithful, rfl, rfl⟩ := ih
    obtain ⟨next, applied, kept, mode, log⟩ := faithful.apply_of_owed_lt valid fits
    refine ⟨next, ?_, kept, mode, log⟩
    rw [replay_snoc, replayed]
    change (c.apply tx).map Prod.fst = _
    rw [applied]
    rfl

/-- If every transaction is valid in its place, nothing but a balance out of bounds is in the way of a
replay. -/
theorem lawful_or_overflow (valids : Log.EachValid mode log) :
    Log.Lawful mode log ∨ replay mode log = .error .overflow := by
  induction log using List.reverseRecOn with
  | nil => exact .inl .nil
  | append_singleton log tx ih =>
    obtain ⟨valids, valid⟩ := Log.eachValid_snoc_iff.1 valids
    rcases ih valids with lawful | overflow
    · by_cases fits : ∀ owner, Log.owed mode (log ++ [tx]) owner < coinBound
      · exact .inl (.snoc lawful valid fits)
      · obtain ⟨owner, excess⟩ := Classical.not_forall.1 fits
        obtain ⟨c, replayed, faithful, rfl, rfl⟩ := replay_of_lawful lawful
        refine .inr ?_
        rw [replay_snoc, replayed]
        change (c.apply tx).map Prod.fst = _
        rw [faithful.apply_of_owed_ge valid (Nat.le_of_not_lt excess)]
        rfl
    · refine .inr ?_
      rw [replay_snoc, overflow]
      rfl

/-- What a book says whatever the order of its log. -/
structure Agrees (b c : Book) : Prop where
  balance : ∀ owner, c.balance owner = b.balance owner
  outputs : ∀ o, c.outputs.find? o = b.outputs.find? o
  byOwner : ∀ owner, (idsOf c.byOwner owner).Perm (idsOf b.byOwner owner)

theorem Faithful.agrees {b c : Book} (h : b.Faithful) (k : c.Faithful) (mode : c.mode = b.mode)
    (same : c.log.Perm b.log) : b.Agrees c where
  balance owner := by
    rw [h.balances, k.balances, mode]
    exact Log.openWorth_perm same _
  outputs o := by
    rw [h.outputs, k.outputs, mode, Log.recordAt?_perm same h.lawful.distinct]
  byOwner owner := by
    rw [h.byOwner, k.byOwner]
    exact (same.filter _).map _

/-- The log of any history replayed in another order, in which every spend has its sources before it.
Under running credit the replay succeeds; under the strict mode it may fail, but only for a balance
out of bounds, and not if the money made by the log is in bounds. When it succeeds, its log is the
other order, and its balances, its records and, up to their order, the ids of every owner are those
of the history. -/
theorem replay_permuted (mode : Accounting) (txs : List Transaction)
    (same : shuffled.Perm ((empty mode).after txs).log) (ordered : Log.SourcesFirst shuffled) :
    (mode = .runningCredit → ∃ c, replay mode shuffled = .ok c) ∧
    (mode = .strictUtxo →
      ((∃ c, replay mode shuffled = .ok c) ∨ replay mode shuffled = .error .overflow) ∧
      (Log.minted ((empty mode).after txs).log < coinBound → ∃ c, replay mode shuffled = .ok c)) ∧
    ∀ c, replay mode shuffled = .ok c →
      c.log = shuffled ∧ ((empty mode).after txs).Agrees c := by
  have faithful := faithful_after mode txs
  have kept : ((empty mode).after txs).mode = mode := mode_after _ txs
  generalize (empty mode).after txs = b at *
  have lawful := faithful.lawful
  rw [kept] at lawful
  have valids : Log.EachValid mode shuffled := by
    rintro before tx later rfl
    exact lawful.valid_shuffled same ordered
  have succeeds : Log.Lawful mode shuffled → ∃ c, replay mode shuffled = .ok c := fun h =>
    (replay_of_lawful h).imp fun _ replayed => replayed.1
  refine ⟨?_, ?_, ?_⟩
  · rintro rfl
    have bounded : Log.Bounded .runningCredit shuffled := by
      intro owner
      rw [Log.owed, Log.openWorth_perm same]
      exact lawful.owed_lt owner
    exact succeeds (bounded.lawful valids)
  · rintro rfl
    refine ⟨(lawful_or_overflow valids).imp succeeds id, fun minted => succeeds ?_⟩
    have bounded : Log.Bounded .strictUtxo shuffled := by
      rw [Log.Bounded, Log.minted_perm same]
      exact minted
    exact bounded.lawful valids
  · intro c replayed
    rcases lawful_or_overflow valids with h | overflow
    · obtain ⟨_, found, faithful', rfl, rfl⟩ := replay_of_lawful h
      cases Except.ok.inj (replayed.symm.trans found)
      exact ⟨rfl, faithful.agrees faithful' kept.symm same⟩
    · rw [overflow] at replayed
      cases replayed

end Book

namespace Service

/-! The grant, the payment of thirty and the gift, replayed with the gift first. -/

theorem valid_gift : Log.Valid .strictUtxo [grant, thirty] gift where
  schema := by decide
  fresh t logged := by
    simp only [List.mem_cons, List.not_mem_nil, or_false] at logged
    rcases logged with rfl | rfl
    · decide +kernel
    · rw [thirty.id_eq, body_thirty, id_paymentBody_thirty]
      decide
  bounded := by decide
  spend coinbase := nomatch coinbase

theorem minted_gift : Log.minted [grant, thirty, gift] = 200 := by
  have made : [grant, thirty, gift].filter (fun tx => tx.body.isCoinbase) = [grant, gift] := by
    rw [List.filter_cons_of_pos rfl, List.filter_cons_of_neg (by simp [isCoinbase_thirty]),
      List.filter_cons_of_pos rfl, List.filter_nil]
  rw [Log.minted, made]
  decide

theorem log_gifted :
    ((Book.empty .strictUtxo).after [grant, thirty, gift]).log = [grant, thirty, gift] := by
  obtain ⟨b, applied, log, _⟩ := apply_thirty
  have paid : (Book.empty .strictUtxo).after [grant, thirty] = b := by
    have runs := Book.after_append (.empty .strictUtxo) [grant] [thirty]
    rw [← book_granted, Book.after_cons, Book.after_nil, Book.attempt, applied] at runs
    exact runs
  have faithful := Book.faithful_after .strictUtxo [grant, thirty]
  have strict : ((Book.empty .strictUtxo).after [grant, thirty]).mode = .strictUtxo :=
    Book.mode_after _ _
  have runs := Book.after_append (.empty .strictUtxo) [grant, thirty] [gift]
  rw [paid] at faithful strict runs
  have lawful := faithful.lawful
  rw [strict, log] at lawful
  have fits : ∀ owner, Log.owed .strictUtxo [grant, thirty, gift] owner < coinBound := by
    intro owner
    have bound := valid_gift.owed_snoc_le_minted lawful owner
    have minted : Log.minted ([grant, thirty] ++ [gift]) = 200 := minted_gift
    rw [minted] at bound
    exact Nat.lt_of_le_of_lt bound (by decide)
  have next := @Book.Faithful.apply_of_owed_lt b gift faithful
  rw [strict, log] at next
  obtain ⟨c, applied, _, _, log⟩ := next valid_gift fits
  rw [Book.after_cons, Book.after_nil, Book.attempt, applied] at runs
  exact (congrArg Book.log runs).trans log

theorem sourcesFirst_gift : Log.SourcesFirst [gift, grant, thirty] := by
  intro before tx later split spend source logged spends
  rcases before with - | ⟨_, - | ⟨_, - | ⟨_, rest⟩⟩⟩
  · cases split
    exact nomatch spend
  · cases split
    exact nomatch spend
  · cases split
    obtain ⟨o, claim, output, names⟩ := spends
    simp only [List.mem_cons, List.not_mem_nil, or_false] at logged ⊢
    rcases logged with first | second | rfl
    · exact .inl first
    · exact .inr second
    · -- what the payment names is the grant
      rw [body_thirty, paymentBody_outpoints] at claim
      cases List.mem_singleton.1 claim
      refine absurd names.1 fun same => id_thirty_ne ?_
      rw [thirty.id_eq, body_thirty] at same
      exact same.symm
  · simp at split

theorem replay_permuted_gift :
    [gift, grant, thirty].Perm ((Book.empty .strictUtxo).after [grant, thirty, gift]).log ∧
      Log.SourcesFirst [gift, grant, thirty] ∧
      Log.minted ((Book.empty .strictUtxo).after [grant, thirty, gift]).log < coinBound ∧
      ∃ c, Book.replay .strictUtxo [gift, grant, thirty] = .ok c ∧ c.log = [gift, grant, thirty] ∧
        ((Book.empty .strictUtxo).after [grant, thirty, gift]).Agrees c := by
  have same : [gift, grant, thirty].Perm
      ((Book.empty .strictUtxo).after [grant, thirty, gift]).log := by
    rw [log_gifted]
    exact (List.perm_append_comm : ([gift] ++ [grant, thirty]).Perm _)
  have minted : Log.minted ((Book.empty .strictUtxo).after [grant, thirty, gift]).log < coinBound := by
    rw [log_gifted, minted_gift]
    decide
  obtain ⟨_, strict, agrees⟩ :=
    Book.replay_permuted .strictUtxo [grant, thirty, gift] same sourcesFirst_gift
  obtain ⟨c, replayed⟩ := (strict rfl).2 minted
  exact ⟨same, sourcesFirst_gift, minted, c, replayed, agrees c replayed⟩

end Service

end CoinLedger
