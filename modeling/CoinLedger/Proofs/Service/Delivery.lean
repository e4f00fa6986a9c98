import CoinLedger.Proofs.Channel
import CoinLedger.Proofs.Message
import CoinLedger.Service

/-!
From the queue to the ledger. Main statements: what a delivery is refused for before the ledger is
asked, and that a queued transaction of the right form that makes no money, when it is delivered
back by whoever it may be, is applied as if it had come directly.
-/

namespace CoinLedger

theorem ok_of_bind {ε α β : Type} {x : Except ε α} {f : α → Except ε β} {b : β}
    (h : (x >>= f) = .ok b) : ∃ a, x = .ok a ∧ f a = .ok b := by
  cases x with
  | error e => exact nomatch h
  | ok a => exact ⟨a, rfl, h⟩

theorem eq_ok_of_toOption {ε α : Type} {x : Except ε α} {a : α} (h : x.toOption = some a) :
    x = .ok a := by
  cases x with
  | error e => exact nomatch h
  | ok b =>
    cases h
    rfl

theorem CashError.bind_eq_ok {α β : Type} {x : Except CashError α} {f : α → Except CashError β}
    {b : β} (h : (x >>= f) = .ok b) : ∃ a, x = .ok a ∧ f a = .ok b := ok_of_bind h

theorem CashError.of_ofForm {α : Type} {x : Except Malformed α} {a : α}
    (h : ofForm x = .ok a) : x = .ok a := by
  cases x with
  | error cause => exact nomatch h
  | ok b =>
    cases h
    rfl

/-- What the transport delivers of a queued message. -/
def Outbound.delivery (m : Outbound) (sender : PublicKey) : Delivery :=
  ⟨m.channel.text, sender, m.message.encode⟩

def Outbound.of (organization : String) (tx : Transaction) : Outbound :=
  ⟨⟨organization⟩, .ofTransaction tx⟩

theorem Outbox.push_eq_ok_iff {outbox next : Outbox} {m : Outbound} :
    outbox.push m = .ok next ↔
      outbox.closed = false ∧ outbox.queue.length < outbox.capacity ∧
        next = { outbox with queue := outbox.queue ++ [m] } := by
  unfold push
  cases closed : outbox.closed with
  | true => simp
  | false => by_cases room : outbox.queue.length < outbox.capacity <;> simp [room, eq_comm]

namespace Service

variable {s next : Service} {organization : String} {tx : Transaction}

theorem submit_eq_ok_iff :
    s.submit organization tx = .ok next ↔
      s.outbox.closed = false ∧ s.outbox.queue.length < s.outbox.capacity ∧
        next = { s with outbox.queue := s.outbox.queue ++ [.of organization tx] } := by
  rw [submit, ← Outbound.of]
  cases pushed : s.outbox.push (.of organization tx) with
  | error e =>
    constructor
    · intro h
      exact nomatch h
    · rintro ⟨opened, room, _⟩
      rw [Outbox.push_eq_ok_iff.2 ⟨opened, room, rfl⟩] at pushed
      exact nomatch pushed
  | ok outbox =>
    obtain ⟨opened, room, rfl⟩ := Outbox.push_eq_ok_iff.1 pushed
    simp [Except.map, opened, room, eq_comm]

/-- Payments and issuances alike are built first and then queued. -/
theorem built_eq_ok_iff {built : Except CashError Transaction} :
    (do let tx ← built; return (← s.submit organization tx, tx)) = .ok (next, tx) ↔
      built = .ok tx ∧ s.submit organization tx = .ok next := by
  constructor
  · intro h
    obtain ⟨payment, building, h⟩ := CashError.bind_eq_ok h
    obtain ⟨later, queued, h⟩ := CashError.bind_eq_ok h
    cases h
    exact ⟨building, queued⟩
  · rintro ⟨rfl, queued⟩
    simp only [bind, Except.bind, queued]
    rfl

end Service

/-- The delivery names an organization, and what it carries is a transaction under its own id. -/
structure Delivery.Reads (d : Delivery) (organization : String) (tx : Transaction) : Prop where
  channel : Channel.ofText d.channel = .ok ⟨organization⟩
  content : ∃ m, Message.decode d.payload = .ok m ∧ m.transaction = .ok tx

theorem Ledger.deliver_of_reads (l : Ledger) (r : Registry) {d : Delivery} {organization : String}
    {tx : Transaction} (reads : d.Reads organization tx) :
    l.deliver r d =
      if tx.body.isCoinbase = true ∧ r.mayIssue organization d.sender = false then
        .error (.unauthorized organization)
      else l.apply organization tx := by
  obtain ⟨m, message, content⟩ := reads.content
  simp only [deliver, reads.channel, message, content, CashError.ofForm, bind, Except.bind]

theorem Ledger.reads_of_deliver {l next : Ledger} {r : Registry} {d : Delivery} {outcome : Outcome}
    (h : l.deliver r d = .ok (next, outcome)) : ∃ organization tx, d.Reads organization tx := by
  unfold deliver at h
  obtain ⟨c, channel, h⟩ := CashError.bind_eq_ok h
  obtain ⟨m, message, h⟩ := CashError.bind_eq_ok h
  obtain ⟨tx, content, _⟩ := CashError.bind_eq_ok h
  exact ⟨c.organization, tx, CashError.of_ofForm channel, m, CashError.of_ofForm message,
    CashError.of_ofForm content⟩

/-- What an answer without an error says of a delivery: it could be read, its sender may make the
money that it makes, and the ledger took it. -/
theorem Ledger.deliver_cases {l next : Ledger} {r : Registry} {d : Delivery} {outcome : Outcome}
    (h : l.deliver r d = .ok (next, outcome)) :
    ∃ organization tx, d.Reads organization tx ∧
      (tx.body.isCoinbase = true → r.mayIssue organization d.sender = true) ∧
      l.apply organization tx = .ok (next, outcome) := by
  obtain ⟨organization, tx, reads⟩ := reads_of_deliver h
  rw [deliver_of_reads l r reads] at h
  split at h
  · exact nomatch h
  · next allowed =>
    refine ⟨organization, tx, reads, fun coinbase => ?_, h⟩
    cases may : r.mayIssue organization d.sender with
    | true => rfl
    | false => exact absurd ⟨coinbase, may⟩ allowed

theorem Outbound.reads_delivery {organization : String} {tx : Transaction}
    (nameable : Channel.Nameable organization) (schema : tx.body.checkSchema = .ok ())
    (keyed : tx.body.KeysOnCurve) (sender : PublicKey) :
    ((Outbound.of organization tx).delivery sender).Reads organization tx :=
  ⟨Channel.ofText_text nameable, .ofTransaction tx, Message.decode_encode keyed,
    Message.transaction_ofTransaction schema⟩

theorem Ledger.deliver_delivery {l : Ledger} {r : Registry} {organization : String}
    {tx : Transaction} (nameable : Channel.Nameable organization)
    (schema : tx.body.checkSchema = .ok ()) (keyed : tx.body.KeysOnCurve) {sender : PublicKey}
    (allowed : tx.body.isCoinbase = true → r.mayIssue organization sender = true) :
    l.deliver r ((Outbound.of organization tx).delivery sender) = l.apply organization tx := by
  rw [deliver_of_reads l r (Outbound.reads_delivery nameable schema keyed sender)]
  refine if_neg ?_
  rintro ⟨coinbase, refused⟩
  exact Bool.false_ne_true (refused.symm.trans (allowed coinbase))

end CoinLedger
