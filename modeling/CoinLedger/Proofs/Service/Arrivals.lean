import CoinLedger.Proofs.Service.Issuance
import CoinLedger.Proofs.Service.Minting
import CoinLedger.Proofs.Table

/-!
Deliveries one after another, each under the organizers of its moment. What a delivery carries is
read without the ledger, and only the book of the organization that it names is asked and touched.
Main statement: what the deliveries to one organization are answered, and what they leave there, does
not depend on what is delivered to others before, after or between them.
-/

namespace CoinLedger

/-- The organization whose channel a delivery came on. -/
def Delivery.organization? (d : Delivery) : Option String :=
  (Channel.ofText d.channel).toOption.map Channel.organization

/-- What a delivery says before any ledger is asked: an organization and a transaction. -/
def Delivery.read (d : Delivery) : Except CashError (String × Transaction) := do
  let channel ← CashError.ofForm (Channel.ofText d.channel)
  let message ← CashError.ofForm (Message.decode d.payload)
  let tx ← CashError.ofForm message.transaction
  return (channel.organization, tx)

theorem Delivery.organization?_of_read {d : Delivery} {organization : String} {tx : Transaction}
    (h : d.read = .ok (organization, tx)) : d.organization? = some organization := by
  obtain ⟨c, channel, h⟩ := CashError.bind_eq_ok h
  obtain ⟨m, _, h⟩ := CashError.bind_eq_ok h
  obtain ⟨tx, _, h⟩ := CashError.bind_eq_ok h
  cases h
  rw [organization?, CashError.of_ofForm channel]
  rfl

theorem Delivery.read_of_reads {d : Delivery} {organization : String} {tx : Transaction}
    (h : d.Reads organization tx) : d.read = .ok (organization, tx) := by
  obtain ⟨m, message, content⟩ := h.content
  simp only [read, h.channel, message, content, CashError.ofForm, bind, Except.bind]
  rfl

/-- A delivery and who the organizers are when it is processed. -/
structure Arrival where
  registry : Registry
  delivery : Delivery

namespace Ledger

def answer (l : Ledger) (a : Arrival) : Except CashError Outcome :=
  (l.deliver a.registry a.delivery).map Prod.snd

/-- The ledger after one arrival. A refused one leaves it as it was. -/
def receive (l : Ledger) (a : Arrival) : Ledger :=
  match l.deliver a.registry a.delivery with
  | .ok (next, _) => next
  | .error _ => l

def receiveAll (l : Ledger) (arrivals : List Arrival) : Ledger := arrivals.foldl receive l

/-- The answers to arrivals, in their order. -/
def answers (l : Ledger) : List Arrival → List (Except CashError Outcome)
  | [] => []
  | a :: rest => l.answer a :: (l.receive a).answers rest

theorem deliverAll_eq_receiveAll (l : Ledger) (r : Registry) (deliveries : List Delivery) :
    l.deliverAll r deliveries = l.receiveAll (deliveries.map (Arrival.mk r)) := by
  rw [receiveAll, List.foldl_map]
  rfl

theorem deliver_eq_bind (l : Ledger) (r : Registry) (d : Delivery) :
    l.deliver r d = d.read.bind fun (organization, tx) =>
      if tx.body.isCoinbase = true ∧ r.mayIssue organization d.sender = false then
        .error (.unauthorized organization)
      else l.apply organization tx := by
  unfold deliver Delivery.read
  cases CashError.ofForm (Channel.ofText d.channel) with
  | error e => rfl
  | ok c =>
    simp only [bind, Except.bind]
    cases CashError.ofForm (Message.decode d.payload) with
    | error e => rfl
    | ok m =>
      simp only
      cases CashError.ofForm m.transaction <;> rfl

section Agreement

variable {l k : Ledger} {organization : String}

/-- Two ledgers that hold the same book of one organization, or both hold none. -/
structure AgreeAt (organization : String) (l k : Ledger) : Prop where
  mode : l.mode = k.mode
  listed : l.books.find? organization = k.books.find? organization

theorem AgreeAt.refl (organization : String) (l : Ledger) : AgreeAt organization l l := ⟨rfl, rfl⟩

theorem AgreeAt.trans {m : Ledger} (h : AgreeAt organization l k) (h' : AgreeAt organization k m) :
    AgreeAt organization l m := ⟨h.mode.trans h'.mode, h.listed.trans h'.listed⟩

theorem AgreeAt.book (h : AgreeAt organization l k) : l.book organization = k.book organization := by
  rw [Ledger.book, Ledger.book, h.mode, h.listed]

/-- Ledgers that agree everywhere are one ledger. -/
theorem eq_of_agreeAt (h : ∀ organization, AgreeAt organization l k) : l = k := by
  obtain ⟨mode, books⟩ := l
  obtain ⟨mode', books'⟩ := k
  cases (h "").mode
  have same : books = books' := Table.ext_find? fun organization => (h organization).listed
  rw [same]

/-- A delivery to another organization, or to none, is not noticed. -/
theorem agreeAt_receive_elsewhere (l : Ledger) {a : Arrival}
    (elsewhere : a.delivery.organization? ≠ some organization) :
    AgreeAt organization (l.receive a) l := by
  rw [receive, deliver_eq_bind]
  cases read : a.delivery.read with
  | error e => exact .refl organization l
  | ok content =>
    obtain ⟨other, tx⟩ := content
    have apart : organization ≠ other := by
      rintro rfl
      exact elsewhere (Delivery.organization?_of_read read)
    simp only [Except.bind]
    split
    · next next outcome taken =>
      split at taken
      · exact nomatch taken
      · cases applied : (l.book other).apply tx with
        | error e =>
          rw [apply_of_error applied] at taken
          exact nomatch taken
        | ok result =>
          rw [apply_of_ok applied] at taken
          cases taken
          exact ⟨rfl, (Table.find?_insert_text _ _ _ _).trans (if_neg apart)⟩
    · exact .refl organization l

/-- A delivery to the organization is answered alike where the books agree, and keeps them so. -/
theorem AgreeAt.receive (h : AgreeAt organization l k) {a : Arrival}
    (here : a.delivery.organization? = some organization) :
    l.answer a = k.answer a ∧ AgreeAt organization (l.receive a) (k.receive a) := by
  unfold answer Ledger.receive
  rw [deliver_eq_bind, deliver_eq_bind]
  cases read : a.delivery.read with
  | error e => exact ⟨rfl, h⟩
  | ok content =>
    obtain ⟨other, tx⟩ := content
    cases Option.some.inj ((Delivery.organization?_of_read read).symm.trans here)
    simp only [Except.bind]
    by_cases barred : tx.body.isCoinbase = true ∧ a.registry.mayIssue organization a.delivery.sender = false
    · rw [if_pos barred, if_pos barred]
      exact ⟨rfl, h⟩
    · rw [if_neg barred, if_neg barred]
      cases applied : (l.book organization).apply tx with
      | error e =>
        have applied' := applied
        rw [h.book] at applied'
        rw [apply_of_error applied, apply_of_error applied']
        exact ⟨rfl, h⟩
      | ok result =>
        have applied' := applied
        rw [h.book] at applied'
        rw [apply_of_ok applied, apply_of_ok applied']
        refine ⟨rfl, h.mode, ?_⟩
        simp only [Table.find?_insert_self]

end Agreement

end Ledger

/-- The arrivals on the channel of one organization. -/
def arrivalsFor (organization : String) (arrivals : List Arrival) : List Arrival :=
  arrivals.filter fun a => a.delivery.organization? = some organization

namespace Ledger

variable {l k : Ledger} {organization : String}

/-- The answers to the arrivals on the channel of one organization. -/
def answersFor (organization : String) (l : Ledger) (arrivals : List Arrival) :
    List (Except CashError Outcome) :=
  ((arrivals.zip (l.answers arrivals)).filter fun e =>
    e.1.delivery.organization? = some organization).map Prod.snd

/-- A whole run, seen from one organization, is the run of the arrivals on its channel. -/
theorem AgreeAt.receiveAll (h : AgreeAt organization l k) (arrivals : List Arrival) :
    answersFor organization l arrivals = k.answers (arrivalsFor organization arrivals) ∧
      AgreeAt organization (l.receiveAll arrivals)
        (k.receiveAll (arrivalsFor organization arrivals)) := by
  induction arrivals generalizing l k with
  | nil => exact ⟨rfl, h⟩
  | cons a rest ih =>
    by_cases here : a.delivery.organization? = some organization
    · obtain ⟨same, kept⟩ := h.receive here
      obtain ⟨later, left⟩ := ih kept
      have seen : arrivalsFor organization (a :: rest) = a :: arrivalsFor organization rest :=
        List.filter_cons_of_pos (by simpa using here)
      rw [seen]
      refine ⟨?_, left⟩
      rw [answers, ← same, ← later]
      simp [answersFor, answers, here]
    · obtain ⟨later, left⟩ := ih ((agreeAt_receive_elsewhere l here).trans h)
      have unseen : arrivalsFor organization (a :: rest) = arrivalsFor organization rest :=
        List.filter_cons_of_neg (by simpa using here)
      rw [unseen]
      refine ⟨?_, left⟩
      rw [← later]
      simp [answersFor, answers, here]

/-- Two runs under fixed organizers in which every organization gets the same deliveries in the same
order. However the organizations are mixed, and whatever comes on no channel at all, each delivery to
an organization gets the same answer in both, and both end in the same ledger. -/
theorem deliverAll_interleaved (l : Ledger) (r : Registry) {ds es : List Delivery}
    (same : ∀ organization, ds.filter (fun d => d.organization? = some organization) =
      es.filter fun d => d.organization? = some organization) :
    (∀ organization, answersFor organization l (ds.map (Arrival.mk r)) =
      answersFor organization l (es.map (Arrival.mk r))) ∧
    l.deliverAll r ds = l.deliverAll r es := by
  have seen : ∀ organization, arrivalsFor organization (ds.map (Arrival.mk r)) =
      arrivalsFor organization (es.map (Arrival.mk r)) := by
    intro organization
    simp only [arrivalsFor, List.filter_map]
    exact congrArg (List.map (Arrival.mk r)) (same organization)
  have left := fun organization => (AgreeAt.refl organization l).receiveAll (ds.map (Arrival.mk r))
  have right := fun organization => (AgreeAt.refl organization l).receiveAll (es.map (Arrival.mk r))
  refine ⟨fun organization => ?_, ?_⟩
  · rw [(left organization).1, (right organization).1, seen]
  · rw [deliverAll_eq_receiveAll, deliverAll_eq_receiveAll]
    refine eq_of_agreeAt fun organization => (left organization).2.trans ?_
    rw [seen]
    exact ⟨(right organization).2.mode.symm, (right organization).2.listed.symm⟩

/-! The payment of thirty while the same grant is made in another organization. -/

section Thirty

open Service

/-- The grant of a hundred, as its organizer brings it to an organization. -/
def grantDelivery (organization : String) : Delivery :=
  (Outbound.of organization (.ofBody grantBody)).delivery payerKey

def thirtyDelivery : Delivery := (Outbound.of "org" thirty).delivery payerKey

/-- A delivery on no channel. -/
def strayDelivery : Delivery := ⟨"/root//coin", payerKey, []⟩

theorem organization?_delivery {organization : String} (nameable : Channel.Nameable organization)
    (tx : Transaction) (sender : PublicKey) :
    ((Outbound.of organization tx).delivery sender).organization? = some organization := by
  have channel : Channel.ofText ((Outbound.of organization tx).delivery sender).channel =
      .ok ⟨organization⟩ := Channel.ofText_text nameable
  rw [Delivery.organization?, channel]
  rfl

theorem nameable_org : Channel.Nameable "org" := ⟨by decide, by decide⟩

theorem nameable_twin : Channel.Nameable "twin" := ⟨by decide, by decide⟩

theorem mints_grantBody : Mints (.ofBody grantBody) [payerAddress] 100 := by
  have built : buildIssuance [payerAddress] 100 = .ok (.ofBody grantBody) :=
    buildIssuance_eq_ok_iff.2 ⟨by decide, by decide, by decide, by decide, rfl⟩
  exact mints_of_buildIssuance built

theorem reads_grantDelivery {organization : String} (nameable : Channel.Nameable organization) :
    (grantDelivery organization).Reads organization (.ofBody grantBody) :=
  Outbound.reads_delivery nameable mints_grantBody.schema mints_grantBody.keyed payerKey

/-- Where nothing is logged yet, the grant is applied. -/
theorem answer_grantDelivery {l : Ledger} {organization : String} {r : Registry}
    (nameable : Channel.Nameable organization) (faithful : (l.book organization).Faithful)
    (unused : l.log organization = []) (holder : r.organizer? organization = some payerKey) :
    l.answer ⟨r, grantDelivery organization⟩ = .ok .applied := by
  have fresh : ∀ t ∈ l.log organization, t.id.bytes ≠ (Transaction.ofBody grantBody).id.bytes := by
    rw [unused]
    exact fun _ none => nomatch none
  have fits : ¬IssuanceOverflows l organization [payerAddress] 100 := by
    rintro ⟨owner, excess⟩
    have listed : occurrences owner [payerAddress] ≤ 1 := List.countP_le_length
    have nothing : l.balance organization owner = 0 := by
      rw [Ledger.balance, faithful.balances, ← Ledger.log, unused]
      rfl
    have bound : coinBound = 2 ^ 64 := rfl
    rw [nothing] at excess
    omega
  obtain ⟨next, applied, _⟩ := apply_of_mints faithful mints_grantBody fresh fits
  have allowed : r.mayIssue organization payerKey = true := decide_eq_true holder
  have barred : ¬((Transaction.ofBody grantBody).body.isCoinbase = true ∧
      r.mayIssue organization (grantDelivery organization).sender = false) :=
    fun refused => Bool.false_ne_true (refused.2.symm.trans allowed)
  rw [answer, deliver_of_reads l r (reads_grantDelivery nameable), if_neg barred, applied]
  rfl

theorem answer_thirtyDelivery : granted.answer ⟨.empty, thirtyDelivery⟩ = .ok .applied := by
  obtain ⟨next, delivered, _⟩ := deliver_thirty (.ofCapacity 1) payerKey
  have taken := (deliver_eq_ok delivered).2
  simp only [answer, thirtyDelivery, taken]
  rfl

theorem deliverAll_interleaved_thirty :
    (∀ organization,
      [thirtyDelivery, grantDelivery "twin", strayDelivery].filter
          (fun d => d.organization? = some organization) =
        [grantDelivery "twin", strayDelivery, thirtyDelivery].filter
          fun d => d.organization? = some organization) ∧
      granted.deliverAll .empty [thirtyDelivery, grantDelivery "twin", strayDelivery] =
        granted.deliverAll .empty [grantDelivery "twin", strayDelivery, thirtyDelivery] ∧
      answersFor "org" granted
        ([grantDelivery "twin", strayDelivery, thirtyDelivery].map (Arrival.mk .empty)) =
          [.ok .applied] := by
  have payment : thirtyDelivery.organization? = some "org" := organization?_delivery nameable_org _ _
  have twin : (grantDelivery "twin").organization? = some "twin" :=
    organization?_delivery nameable_twin _ _
  have stray : strayDelivery.organization? = none := by decide
  have same : ∀ organization,
      [thirtyDelivery, grantDelivery "twin", strayDelivery].filter
          (fun d => d.organization? = some organization) =
        [grantDelivery "twin", strayDelivery, thirtyDelivery].filter
          fun d => d.organization? = some organization := by
    intro organization
    by_cases here : "org" = organization
    · subst here
      simp [payment, twin, stray]
    · simp [List.filter_cons, payment, twin, stray, here]
  obtain ⟨answers, ledgers⟩ := deliverAll_interleaved granted .empty same
  refine ⟨same, ledgers, ?_⟩
  rw [← answers]
  simp [answersFor, Ledger.answers, payment, twin, stray, answer_thirtyDelivery]

end Thirty

end Ledger

end CoinLedger
