import Mathlib.Data.List.Induction
import CoinLedger.Proofs.Ledger.History
import CoinLedger.Proofs.Service.Delivery

/-!
Where the money in a log comes from, over whole runs of a service with changing organizers. Main
statement: whatever was called before, each logged transaction that makes money was brought by a
delivery in the channel of its organization, from the organizer registered last before it; and
nothing but a delivery touches any book.
-/

namespace CoinLedger

/-- What can be done to a service, in any order. A grant may be as old as it likes, and a delivery
may carry any bytes. The transport takes what is queued, or goes away, whenever it wants. -/
inductive Call where
  | register (organization : String) (organizer : PublicKey)
  | issue (grant : Grant) (beneficiaries : List Hash) (amount : Int64)
  | send (organization : String) (signer : Signer) (recipient : Hash) (amount : Int64)
  | submit (organization : String) (tx : Transaction)
  | deliver (d : Delivery)
  | drain
  | close

theorem Ledger.log_apply {l next : Ledger} {organization : String} {tx : Transaction}
    {outcome : Outcome} (h : l.apply organization tx = .ok (next, outcome)) (other : String) :
    next.log other = l.log other ∨
      other = organization ∧ next.log other = l.log other ++ [tx] := by
  unfold apply at h
  cases applied : (l.book organization).apply tx with
  | error e => rw [applied] at h; exact nomatch h
  | ok result =>
    rw [applied] at h
    cases h
    rw [log, log, book_insert]
    by_cases same : other = organization
    · rw [if_pos same, same]
      rcases Book.apply_cases applied with ⟨_, kept, _⟩ | ⟨a, balances, _, grown, _⟩
      · exact .inl (by rw [kept])
      · exact .inr ⟨rfl, by rw [grown, Book.append_log]⟩
    · exact .inl (by rw [if_neg same])

namespace Service

/-- A service with nothing applied and nobody registered. -/
def fresh (mode : Accounting) (outbox : Outbox) : Service := ⟨.empty mode, .empty, outbox⟩

/-- What is left after an answer. A refused call leaves the service as it was. -/
def afterAnswer (s : Service) : Except CashError Service → Service
  | .ok next => next
  | .error _ => s

def call (s : Service) : Call → Service
  | .register organization organizer =>
    { s with registry := s.registry.register organization organizer }
  | .issue grant beneficiaries amount =>
    s.afterAnswer ((s.issue grant beneficiaries amount).map Prod.fst)
  | .send organization signer recipient amount =>
    s.afterAnswer ((s.send organization signer recipient amount).map Prod.fst)
  | .submit organization tx => s.afterAnswer (s.submit organization tx)
  | .deliver d => s.afterAnswer ((s.deliver d).map Prod.fst)
  | .drain => { s with outbox := s.outbox.drained }
  | .close => { s with outbox := s.outbox.close }

def run (s : Service) (calls : List Call) : Service := calls.foldl call s

theorem run_snoc (s : Service) (calls : List Call) (c : Call) :
    s.run (calls ++ [c]) = (s.run calls).call c := by
  simp [run]

section Queueing

variable {s next : Service}

/-- The queue aside, nothing has changed. -/
structure Keeps (s next : Service) : Prop where
  ledger : next.ledger = s.ledger
  registry : next.registry = s.registry

theorem Keeps.refl (s : Service) : s.Keeps s := ⟨rfl, rfl⟩

theorem keeps_submit {organization : String} {tx : Transaction}
    (h : s.submit organization tx = .ok next) : s.Keeps next := by
  obtain ⟨_, _, rfl⟩ := submit_eq_ok_iff.1 h
  exact ⟨rfl, rfl⟩

theorem keeps_built {organization : String} {built : Except CashError Transaction}
    {tx : Transaction}
    (h : (do let tx ← built; return (← s.submit organization tx, tx)) = .ok (next, tx)) :
    s.Keeps next := keeps_submit (built_eq_ok_iff.1 h).2

theorem keeps_afterAnswer {answer : Except CashError Service}
    (h : ∀ next, answer = .ok next → s.Keeps next) : s.Keeps (s.afterAnswer answer) := by
  cases answer with
  | error e => exact .refl s
  | ok next => exact h next rfl

theorem keeps_afterBuilt {answer : Except CashError (Service × Transaction)}
    (h : ∀ next tx, answer = .ok (next, tx) → s.Keeps next) :
    s.Keeps (s.afterAnswer (answer.map Prod.fst)) := by
  cases answer with
  | error e => exact .refl s
  | ok result => exact h result.1 result.2 rfl

end Queueing

/-- What is called beside registrations and deliveries can only change the queue. -/
theorem keeps_call (s : Service) {c : Call}
    (registers : ∀ organization organizer, c ≠ .register organization organizer)
    (delivers : ∀ d, c ≠ .deliver d) : s.Keeps (s.call c) := by
  cases c with
  | register organization organizer => exact absurd rfl (registers organization organizer)
  | issue grant beneficiaries amount => exact keeps_afterBuilt fun _ _ => keeps_built
  | send organization signer recipient amount => exact keeps_afterBuilt fun _ _ => keeps_built
  | submit organization tx => exact keeps_afterAnswer fun _ => keeps_submit
  | deliver d => exact absurd rfl (delivers d)
  | drain => exact ⟨rfl, rfl⟩
  | close => exact ⟨rfl, rfl⟩

/-- Only a delivery touches the books. -/
theorem ledger_call (s : Service) {c : Call} (other : ∀ d, c ≠ .deliver d) :
    (s.call c).ledger = s.ledger := by
  cases c with
  | register organization organizer => rfl
  | _ => exact (s.keeps_call (by simp) other).ledger

theorem deliver_eq_ok {s next : Service} {d : Delivery} {outcome : Outcome}
    (h : s.deliver d = .ok (next, outcome)) :
    next.registry = s.registry ∧ s.ledger.deliver s.registry d = .ok (next.ledger, outcome) := by
  unfold deliver at h
  cases delivered : s.ledger.deliver s.registry d with
  | error e => rw [delivered] at h; exact nomatch h
  | ok result =>
    rw [delivered] at h
    cases h
    exact ⟨rfl, rfl⟩

theorem call_deliver_cases (s : Service) (d : Delivery) :
    s.call (.deliver d) = s ∨
      ∃ next outcome, s.call (.deliver d) = next ∧ s.deliver d = .ok (next, outcome) := by
  cases delivered : s.deliver d with
  | error e => exact .inl (by rw [call, delivered]; rfl)
  | ok result => exact .inr ⟨result.1, result.2, by rw [call, delivered]; rfl, rfl⟩

/-- Only a registration changes who may issue. -/
theorem registry_call (s : Service) {c : Call}
    (other : ∀ organization organizer, c ≠ .register organization organizer) :
    (s.call c).registry = s.registry := by
  cases c with
  | deliver d =>
    rcases call_deliver_cases s d with same | ⟨next, outcome, same, delivered⟩
    · rw [same]
    · rw [same]
      exact (deliver_eq_ok delivered).1
  | _ => exact (s.keeps_call other (by simp)).registry

/-- The organizer was registered for the organization, and nobody was after that. -/
def MostRecent (calls : List Call) (organization : String) (organizer : PublicKey) : Prop :=
  ∃ earlier later, calls = earlier ++ .register organization organizer :: later ∧
    ∀ k, .register organization k ∉ later

theorem mostRecent_register (calls : List Call) (organization : String) (organizer : PublicKey) :
    MostRecent (calls ++ [.register organization organizer]) organization organizer :=
  ⟨calls, [], rfl, fun _ => List.not_mem_nil⟩

theorem MostRecent.snoc {calls : List Call} {organization : String} {organizer : PublicKey}
    (h : MostRecent calls organization organizer) {c : Call}
    (other : ∀ k, c ≠ .register organization k) :
    MostRecent (calls ++ [c]) organization organizer := by
  obtain ⟨earlier, later, rfl, last⟩ := h
  refine ⟨earlier, later ++ [c], by simp, ?_⟩
  intro k member
  rcases List.mem_append.1 member with member | member
  · exact last k member
  · exact other k (List.mem_singleton.1 member).symm

theorem mostRecent_of_organizer? {mode : Accounting} {outbox : Outbox} {calls : List Call}
    {organization : String} {organizer : PublicKey}
    (h : ((fresh mode outbox).run calls).registry.organizer? organization = some organizer) :
    MostRecent calls organization organizer := by
  induction calls using List.reverseRecOn with
  | nil => exact nomatch h
  | append_singleton calls c ih =>
    rw [run_snoc] at h
    by_cases registers : ∃ named k, c = .register named k
    · obtain ⟨named, k, rfl⟩ := registers
      simp only [call, Registry.register, Registry.organizer?, Table.find?_insert] at h
      by_cases same : organization = named
      · rw [if_pos (by rw [same])] at h
        cases h
        rw [same]
        exact mostRecent_register calls named organizer
      · rw [if_neg (by simpa [Keyed.key] using same)] at h
        refine (ih h).snoc ?_
        rintro k' ⟨⟩
        exact same rfl
    · have other : ∀ named k, c ≠ .register named k := fun named k e => registers ⟨named, k, e⟩
      rw [registry_call _ other] at h
      exact (ih h).snoc (other organization)

/-- A delivery that is logged for an organization, as the transaction that it carries. -/
structure Appends (s : Service) (d : Delivery) (organization : String) (tx : Transaction) :
    Prop where
  reads : d.Reads organization tx
  log : (s.call (.deliver d)).ledger.log organization = s.ledger.log organization ++ [tx]

/-- What one call can do to a log: nothing, or a delivery appends what it carries; and what makes
money is appended only for the registered organizer. -/
theorem log_call (s : Service) (c : Call) (organization : String) :
    (s.call c).ledger.log organization = s.ledger.log organization ∨
      ∃ d tx, c = .deliver d ∧ s.Appends d organization tx ∧
        (tx.body.isCoinbase = true →
          s.registry.organizer? organization = some d.sender) := by
  by_cases delivers : ∃ d, c = .deliver d
  · obtain ⟨d, rfl⟩ := delivers
    rcases call_deliver_cases s d with same | ⟨next, outcome, same, delivered⟩
    · exact .inl (by rw [same])
    · have delivered := (deliver_eq_ok delivered).2
      obtain ⟨named, tx, reads, allowed, applied⟩ := Ledger.deliver_cases delivered
      rcases Ledger.log_apply applied organization with kept | ⟨rfl, grown⟩
      · exact .inl (by rw [same, kept])
      · refine .inr ⟨d, tx, rfl, ⟨reads, by rw [same, grown]⟩, ?_⟩
        intro coinbase
        exact of_decide_eq_true (allowed coinbase)
  · exact .inl (by rw [ledger_call s fun d e => delivers ⟨d, e⟩])

/-- Only the organizer makes money, and only a delivery changes a book. A logged coinbase
transaction, at whatever place of whatever log, was appended there by a delivery in the channel of
that organization, whose sender was at that moment the organizer registered last. Older grants,
queued messages and other channels give no other way in. -/
theorem coinbase_by_organizer (mode : Accounting) (outbox : Outbox) (calls : List Call) :
    (∀ organization front tx rest,
      ((fresh mode outbox).run calls).ledger.log organization = front ++ tx :: rest →
      tx.body.isCoinbase = true →
      ∃ before d later, calls = before ++ .deliver d :: later ∧
        ((fresh mode outbox).run before).ledger.log organization = front ∧
        ((fresh mode outbox).run before).Appends d organization tx ∧
        MostRecent before organization d.sender) ∧
    ∀ (s : Service) (c : Call), (∀ d, c ≠ .deliver d) → (s.call c).ledger = s.ledger := by
  refine ⟨?_, fun s c => ledger_call s⟩
  intro organization front tx rest logged coinbase
  -- on the last call: it leaves the log, or it appends to it this transaction or a later one
  induction calls using List.reverseRecOn generalizing rest with
  | nil => exact absurd logged (by simp [run, fresh, Ledger.log, Book.empty])
  | append_singleton calls c ih =>
    rw [run_snoc] at logged
    rcases log_call ((fresh mode outbox).run calls) c organization with
      kept | ⟨d, last, rfl, appends, allowed⟩
    · obtain ⟨before, d, later, rfl, found⟩ := ih rest (kept ▸ logged)
      exact ⟨before, d, later ++ [c], by simp, found⟩
    · rw [appends.log] at logged
      rcases List.eq_nil_or_concat rest with rfl | ⟨rest, tail, rfl⟩
      · obtain ⟨old, new⟩ := List.append_inj' logged rfl
        cases new
        exact ⟨calls, d, [], rfl, old, appends, mostRecent_of_organizer? (allowed coinbase)⟩
      · rw [List.concat_eq_append, ← List.cons_append, ← List.append_assoc] at logged
        obtain ⟨before, d', later, rfl, found⟩ := ih rest (List.append_inj' logged rfl).1
        exact ⟨before, d', later ++ [.deliver d], by simp, found⟩

end Service

end CoinLedger
