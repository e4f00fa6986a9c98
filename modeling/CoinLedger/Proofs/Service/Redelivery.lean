import CoinLedger.Proofs.Service.Arrivals

/-!
Deliveries that come again. The id of an applied transaction stays in the places of its book for good,
and it is looked up before anything else about the transaction is. Main statement: further copies of a
delivery that was taken once change neither the ledger nor any other answer, wherever they come.
-/

namespace CoinLedger

namespace Book

variable {b next : Book} {tx : Transaction} {outcome : Outcome}

@[simp] theorem append_positions (b : Book) (tx : Transaction) (consumed : List OutPoint)
    (balances : Table Hash Nat) :
    (b.append tx consumed balances).positions = b.positions.insert tx.id b.log.length := rfl

/-- The book has a place for the id. -/
def Knows (b : Book) (id : Hash) : Prop := (b.positions.find? id).isSome = true

theorem knows_of_apply (h : b.apply tx = .ok (next, outcome)) : next.Knows tx.id := by
  unfold Knows
  rcases apply_cases h with ⟨known, same, _⟩ | ⟨a, balances, _, appended, _⟩
  · rw [same]
    exact known
  · rw [appended, append_positions, Table.find?_insert_self]
    rfl

theorem Knows.attempt {id : Hash} (h : b.Knows id) (tx : Transaction) : (b.attempt tx).Knows id := by
  unfold Knows at *
  rcases attempt_cases b tx with same | ⟨a, balances, _, appended⟩
  · rw [same]
    exact h
  · rw [appended, append_positions, Table.find?_insert]
    split
    · rfl
    · exact h

theorem Knows.apply_eq (h : b.Knows tx.id) : b.apply tx = .ok (b, .alreadyApplied) := if_pos h

end Book

namespace Ledger

variable {l : Ledger} {organization : String} {tx : Transaction}

theorem Knows.apply_eq (h : (l.book organization).Knows tx.id) :
    l.apply organization tx = .ok (l, .alreadyApplied) := by
  rw [apply_of_ok h.apply_eq, Table.insert_of_find? (find?_of_known h)]

/-- An arrival changes nothing, or it is one attempt on one book. -/
theorem receive_cases (l : Ledger) (a : Arrival) :
    l.receive a = l ∨
      ∃ organization tx, a.delivery.Reads organization tx ∧
        l.receive a = l.attempt organization tx := by
  unfold receive
  split
  · next next outcome taken =>
    obtain ⟨organization, tx, reads, _, applied⟩ := deliver_cases taken
    exact .inr ⟨organization, tx, reads, (attempt_of_apply applied).symm⟩
  · exact .inl rfl

theorem knows_receive {id : Hash} (h : (l.book organization).Knows id) (a : Arrival) :
    ((l.receive a).book organization).Knows id := by
  rcases receive_cases l a with same | ⟨other, tx, _, tried⟩
  · rw [same]
    exact h
  · rw [tried, book_attempt]
    split
    · exact h.attempt tx
    · exact h

theorem knows_of_answer {a : Arrival} {outcome : Outcome} (took : l.answer a = .ok outcome) :
    ∃ organization tx, a.delivery.Reads organization tx ∧
      ((l.receive a).book organization).Knows tx.id := by
  unfold answer at took
  unfold receive
  cases delivered : l.deliver a.registry a.delivery with
  | error e =>
    rw [delivered] at took
    exact nomatch took
  | ok result =>
    obtain ⟨next, kind⟩ := result
    obtain ⟨organization, tx, reads, _, applied⟩ := deliver_cases delivered
    refine ⟨organization, tx, reads, ?_⟩
    cases tried : (l.book organization).apply tx with
    | error e =>
      rw [apply_of_error tried] at applied
      exact nomatch applied
    | ok answer =>
      rw [apply_of_ok tried] at applied
      cases applied
      rw [book_insert_self]
      exact Book.knows_of_apply tried

/-- What a delivery is answered once its transaction is in the log. -/
def copyAnswer (d : Delivery) (organization : String) (tx : Transaction) (r : Registry) :
    Except CashError Outcome :=
  if tx.body.isCoinbase = true ∧ r.mayIssue organization d.sender = false then
    .error (.unauthorized organization)
  else .ok .alreadyApplied

theorem receive_copy {d : Delivery} (reads : d.Reads organization tx)
    (h : (l.book organization).Knows tx.id) (r : Registry) :
    l.receive ⟨r, d⟩ = l ∧ l.answer ⟨r, d⟩ = copyAnswer d organization tx r := by
  unfold receive answer copyAnswer
  rw [deliver_of_reads l r reads, Knows.apply_eq h]
  by_cases barred : tx.body.isCoinbase = true ∧ r.mayIssue organization d.sender = false
  · rw [if_pos barred, if_pos barred]
    exact ⟨rfl, rfl⟩
  · rw [if_neg barred, if_neg barred]
    exact ⟨rfl, rfl⟩

end Ledger

/-- One item of a run in which a delivery is repeated: an arrival of the run itself, or one more copy
of the delivery under the organizers of that moment. -/
inductive Item where
  | own (a : Arrival)
  | copy (registry : Registry)

namespace Item

def arrival (d : Delivery) : Item → Arrival
  | .own a => a
  | .copy r => ⟨r, d⟩

def own? : Item → Option Arrival
  | .own a => some a
  | .copy _ => none

end Item

/-- The arrivals of a run with the copies. -/
def withCopies (d : Delivery) (items : List Item) : List Arrival := items.map (Item.arrival d)

/-- The arrivals of the run itself. -/
def withoutCopies (items : List Item) : List Arrival := items.filterMap Item.own?

namespace Ledger

/-- The items of a run, each with its answer. -/
def answered (d : Delivery) (l : Ledger) (items : List Item) :
    List (Item × Except CashError Outcome) := items.zip (l.answers (withCopies d items))

/-- The answers to all but the copies. -/
def ownAnswers (d : Delivery) (l : Ledger) (items : List Item) : List (Except CashError Outcome) :=
  (l.answered d items).filterMap fun e => e.1.own?.map fun _ => e.2

variable {l : Ledger} {organization : String} {tx : Transaction} {d : Delivery}

theorem answered_cons (d : Delivery) (l : Ledger) (i : Item) (items : List Item) :
    l.answered d (i :: items) =
      (i, l.answer (i.arrival d)) :: (l.receive (i.arrival d)).answered d items := rfl

theorem ownAnswers_own (d : Delivery) (l : Ledger) (a : Arrival) (items : List Item) :
    l.ownAnswers d (.own a :: items) = l.answer a :: (l.receive a).ownAnswers d items := rfl

theorem ownAnswers_copy (d : Delivery) (l : Ledger) (r : Registry) (items : List Item) :
    l.ownAnswers d (.copy r :: items) = (l.receive ⟨r, d⟩).ownAnswers d items := rfl

/-- The copies leave no trace: neither in the ledger nor in the answers to the others, and each is
itself answered as known. -/
structure Harmless (d : Delivery) (organization : String) (tx : Transaction) (l : Ledger)
    (items : List Item) : Prop where
  ledger : l.receiveAll (withCopies d items) = l.receiveAll (withoutCopies items)
  others : l.ownAnswers d items = l.answers (withoutCopies items)
  copies : ∀ r answer, (.copy r, answer) ∈ l.answered d items →
    answer = copyAnswer d organization tx r

/-- Nothing is said of an arrival of the run's own but that the rest goes on after it. -/
theorem Harmless.own {a : Arrival} {items : List Item}
    (h : Harmless d organization tx (l.receive a) items) :
    Harmless d organization tx l (.own a :: items) where
  ledger := h.ledger
  others := by
    rw [ownAnswers_own, h.others]
    rfl
  copies r answer member := by
    rw [answered_cons] at member
    rcases List.mem_cons.1 member with here | later
    · exact nomatch here
    · exact h.copies r answer later

theorem harmless_of_knows (reads : d.Reads organization tx) (h : (l.book organization).Knows tx.id)
    (items : List Item) : Harmless d organization tx l items := by
  induction items generalizing l with
  | nil => exact ⟨rfl, rfl, fun _ _ none => nomatch none⟩
  | cons i items ih =>
    cases i with
    | own a => exact (ih (knows_receive h a)).own
    | copy r =>
      obtain ⟨same, answer⟩ := receive_copy reads h r
      have rest := ih h
      refine ⟨?_, ?_, ?_⟩
      · change (l.receive ⟨r, d⟩).receiveAll _ = _
        rw [same]
        exact rest.ledger
      · rw [ownAnswers_copy, same]
        exact rest.others
      · intro r' answer' member
        rw [answered_cons] at member
        rcases List.mem_cons.1 member with here | later
        · cases here
          exact answer
        · change _ ∈ (l.receive ⟨r, d⟩).answered d items at later
          rw [same] at later
          exact rest.copies r' answer' later

/-- Delivering again what was taken once. In whatever run, under whatever organizers: copies of a
delivery that was answered without an error, put in anywhere after it, leave the final ledger and the
answer to every other delivery as they are without them, and each copy is answered that its
transaction is known or, if that makes money, that its sender is not the organizer any more. -/
theorem redelivery_unchanged (l : Ledger) (early : List Arrival) {a : Arrival} {outcome : Outcome}
    (took : (l.receiveAll early).answer a = .ok outcome) (later : List Item) :
    ∃ organization tx, a.delivery.Reads organization tx ∧
      l.receiveAll (withCopies a.delivery (early.map .own ++ .own a :: later)) =
        l.receiveAll (early ++ a :: withoutCopies later) ∧
      l.ownAnswers a.delivery (early.map .own ++ .own a :: later) =
        l.answers (early ++ a :: withoutCopies later) ∧
      ∀ r answer,
        (.copy r, answer) ∈ l.answered a.delivery (early.map .own ++ .own a :: later) →
        answer = if tx.body.isCoinbase = true ∧ r.mayIssue organization a.delivery.sender = false then
          .error (.unauthorized organization)
        else .ok .alreadyApplied := by
  obtain ⟨organization, tx, reads, knows⟩ := knows_of_answer took
  have after : Harmless a.delivery organization tx (l.receiveAll early) (.own a :: later) :=
    (harmless_of_knows reads knows later).own
  have whole : Harmless a.delivery organization tx l (early.map .own ++ .own a :: later) := by
    clear took knows
    induction early generalizing l with
    | nil => exact after
    | cons e early ih => exact (ih (l.receive e) after).own
  have run : withoutCopies (early.map .own ++ .own a :: later) =
      early ++ a :: withoutCopies later := by
    simp [withoutCopies, List.filterMap_append, List.filterMap_map, Function.comp_def, Item.own?]
  refine ⟨organization, tx, reads, ?_, ?_, whole.copies⟩
  · rw [whole.ledger, run]
  · rw [whole.others, run]

section Granted

open Service

/-- The grant delivered twice more: once while its sender is the organizer, and once, after the grant
was spent, when nobody is. -/
theorem redelivery_unchanged_grant :
    (Ledger.empty .strictUtxo).answer ⟨organized, grantDelivery "org"⟩ = .ok .applied ∧
      (Ledger.empty .strictUtxo).receiveAll
          [⟨organized, grantDelivery "org"⟩, ⟨organized, grantDelivery "org"⟩,
            ⟨.empty, thirtyDelivery⟩, ⟨.empty, grantDelivery "org"⟩] =
        (Ledger.empty .strictUtxo).receiveAll
          [⟨organized, grantDelivery "org"⟩, ⟨.empty, thirtyDelivery⟩] ∧
      ∃ payment, (Ledger.empty .strictUtxo).answers
          [⟨organized, grantDelivery "org"⟩, ⟨organized, grantDelivery "org"⟩,
            ⟨.empty, thirtyDelivery⟩, ⟨.empty, grantDelivery "org"⟩] =
        [.ok .applied, .ok .alreadyApplied, payment, .error (.unauthorized "org")] := by
  have took : (Ledger.empty .strictUtxo).answer ⟨organized, grantDelivery "org"⟩ = .ok .applied :=
    answer_grantDelivery nameable_org (Book.faithful_empty _) rfl organizer?_organized
  obtain ⟨organization, tx, reads, ledgers, _, copies⟩ :=
    redelivery_unchanged (.empty .strictUtxo) [] took
      [.copy organized, .own ⟨.empty, thirtyDelivery⟩, .copy .empty]
  have content := (Delivery.read_of_reads reads).symm.trans
    (Delivery.read_of_reads (reads_grantDelivery nameable_org))
  obtain ⟨rfl, rfl⟩ := Prod.mk.inj (Except.ok.inj content)
  have may : organized.mayIssue "org" payerKey = true := decide_eq_true organizer?_organized
  have known := (copies organized _ (.tail _ (.head _))).trans
    (if_neg fun refused => Bool.false_ne_true (refused.2.symm.trans may))
  have barred := (copies .empty _ (.tail _ (.tail _ (.tail _ (.head _))))).trans
    (if_pos ⟨mints_grantBody.coinbase, rfl⟩)
  simp only [Item.arrival] at known barred
  refine ⟨took, ledgers, ?_⟩
  simp only [answers, took, known, barred]
  exact ⟨_, rfl⟩

end Granted

end Ledger

end CoinLedger
