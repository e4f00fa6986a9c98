import Mathlib.Logic.Relation
import CoinLedger.Proofs.Ledger.Shuffle
import CoinLedger.Proofs.Service.Payment

/-!
A transaction of one organization tried in another. Nothing that is signed names the organization, so
what keeps a spend out of another book is only that the outputs it names are not there. Main
statement: it is refused unless each of its inputs spends an output of that other log, and, ids being
told apart, unless everything that it descends from, down to the issuances, is in that log too. Where
that is so, the spend can be replayed.
-/

namespace CoinLedger

namespace Log

/-- From a transaction to the logged ones that it spends from, to those that these spend from, and so
on. -/
def Descends (log : List Transaction) : Transaction → Transaction → Prop :=
  Relation.TransGen fun tx source => source ∈ log ∧ tx.SpendsFrom source

/-- Two transactions that are not the same, one in each log, have the same id. -/
def ShareId (log other : List Transaction) : Prop :=
  ∃ s ∈ log, ∃ t ∈ other, s.id.bytes = t.id.bytes ∧ s ≠ t

variable {mode : Accounting} {log other log' other' : List Transaction} {tx source : Transaction}

theorem Descends.mono (h : Descends log tx source) (part : log ⊆ log') :
    Descends log' tx source :=
  Relation.TransGen.mono (fun _ _ step => ⟨part step.1, step.2⟩) _ _ h

theorem ShareId.mono (h : ShareId log other) (left : log ⊆ log') (right : other ⊆ other') :
    ShareId log' other' := by
  obtain ⟨s, logged, t, also, same, apart⟩ := h
  exact ⟨s, left logged, t, right also, same, apart⟩

theorem Valid.spendsFrom (h : Valid mode log tx) (spend : tx.body.isCoinbase = false) :
    ∃ s ∈ log, tx.SpendsFrom s := by
  obtain ⟨_, _, some, _⟩ := Body.checkSchema_eq_ok_iff.1 h.schema
  obtain ⟨i, input⟩ := List.exists_mem_of_ne_nil _ some
  have claim : i.outpoint ∈ tx.body.outpoints := List.mem_map_of_mem input
  obtain ⟨output, found⟩ := h.named spend claim
  obtain ⟨s, logged, names⟩ := names_of_outputAt? found
  exact ⟨s, logged, i.outpoint, claim, output, names⟩

/-- A valid transaction spends from nothing but what is logged, under the id that it names. -/
theorem Valid.id_mem_of_spendsFrom (h : Valid mode log tx) (spends : tx.SpendsFrom source) :
    ∃ t ∈ log, t.id.bytes = source.id.bytes := by
  obtain ⟨o, claim, output, hash, place, index, _⟩ := spends
  cases coinbase : tx.body.isCoinbase with
  | true =>
    have negative := Body.index_neg_of_coinbase h.schema coinbase claim
    rw [Int64.lt_iff_toInt_lt, index, Int64.toInt_zero] at negative
    omega
  | false =>
    obtain ⟨_, found⟩ := h.named coinbase claim
    obtain ⟨t, logged, names⟩ := names_of_outputAt? found
    exact ⟨t, logged, names.1.symm.trans hash⟩

theorem Valid.mem_of_spendsFrom (h : Valid mode other tx) (clear : ¬ShareId log other)
    (logged : source ∈ log) (spends : tx.SpendsFrom source) : source ∈ other := by
  obtain ⟨t, also, same⟩ := h.id_mem_of_spendsFrom spends
  by_cases equal : source = t
  · exact equal ▸ also
  · exact absurd ⟨source, logged, t, also, same.symm, equal⟩ clear

theorem Lawful.mem_of_spendsFrom (h : Lawful mode other) (clear : ¬ShareId log other)
    (also : tx ∈ other) (logged : source ∈ log) (spends : tx.SpendsFrom source) :
    source ∈ other := by
  -- the other log held the source too before it took the transaction
  obtain ⟨front, rest, rfl⟩ := List.append_of_mem also
  have part : front ⊆ front ++ tx :: rest := List.subset_append_left _ _
  have clear' : ¬ShareId log front := fun shared =>
    clear (shared.mono (List.Subset.refl log) part)
  exact part (h.valid_at.mem_of_spendsFrom clear' logged spends)

/-- What is valid after another log descends from nothing that is not in that log. -/
theorem Lawful.mem_of_descends (h : Lawful mode other) (clear : ¬ShareId log other)
    (valid : Valid mode other tx) (descends : Descends log tx source) : source ∈ other := by
  induction descends with
  | single step => exact valid.mem_of_spendsFrom clear step.1 step.2
  | tail _ step ih => exact h.mem_of_spendsFrom clear ih step.1 step.2

/-- All coins go back to an issuance. -/
theorem Lawful.descends_issuance (h : Lawful mode log) (logged : tx ∈ log)
    (spend : tx.body.isCoinbase = false) :
    ∃ s, Descends log tx s ∧ s.body.isCoinbase = true := by
  induction h generalizing tx with
  | nil => exact nomatch logged
  | @snoc log last before valid _ ih =>
    have shorter : log ⊆ log ++ [last] := List.subset_append_left _ _
    rcases List.mem_append.1 logged with old | newest
    · obtain ⟨s, descends, coinbase⟩ := ih old spend
      exact ⟨s, descends.mono shorter, coinbase⟩
    · cases List.mem_singleton.1 newest
      obtain ⟨s, old, spends⟩ := valid.spendsFrom spend
      have step : Descends (log ++ [last]) last s := .single ⟨shorter old, spends⟩
      cases coinbase : s.body.isCoinbase with
      | true => exact ⟨s, step, coinbase⟩
      | false =>
        obtain ⟨r, older, issuance⟩ := ih old coinbase
        exact ⟨r, step.trans (older.mono shorter), issuance⟩

end Log

/-- The ledger refuses the transaction and stays as it is. -/
def Ledger.Refuses (l : Ledger) (organization : String) (tx : Transaction) : Prop :=
  (∃ e, l.apply organization tx = .error e) ∧ l.attempt organization tx = l

theorem Ledger.refuses_or_valid {l : Ledger} {organization : String} {tx : Transaction}
    (faithful : (l.book organization).Faithful)
    (fresh : ∀ t ∈ l.log organization, t.id.bytes ≠ tx.id.bytes) :
    l.Refuses organization tx ∨ Log.Valid (l.book organization).mode (l.log organization) tx := by
  cases answer : (l.book organization).apply tx with
  | error e => exact .inl ⟨⟨e, apply_of_error answer⟩, attempt_of_error answer⟩
  | ok result =>
    rcases Book.apply_cases answer with ⟨known, _⟩ | ⟨a, balances, accepts, _⟩
    · rw [faithful.fresh_iff.2 fresh] at known
      exact nomatch known
    · exact .inr (faithful.accepts_iff.1 accepts).1

namespace Service

variable {mode : Accounting} {attempts : List (String × Transaction)} {l : Ledger}

/-- Replaying a spend of one organization in another. No third book is touched, and the other book
refuses it if one of its inputs spends no output of that book's own log. If ids are told apart across
the two logs, the other book refuses it as well if something that it descends from is missing there;
and an issuance is among what it descends from. -/
theorem replay_refused (reached : (Ledger.empty mode).after attempts = l) {here there : String}
    {tx : Transaction} (logged : tx ∈ l.log here) (absent : tx ∉ l.log there)
    (spend : tx.body.isCoinbase = false) :
    (∀ organization, organization ≠ there →
      (l.attempt there tx).book organization = l.book organization) ∧
    ((∀ t ∈ l.log there, t.id.bytes ≠ tx.id.bytes) →
      (∃ i ∈ tx.body.inputs, ∀ output, ¬i.Spends (l.log there) tx.body.signingPayload output) →
      l.Refuses there tx) ∧
    (¬Log.ShareId (l.log here) (l.log there) →
      (∃ source, Log.Descends (l.log here) tx source ∧ source ∉ l.log there) →
      l.Refuses there tx) ∧
    ∃ issuance, Log.Descends (l.log here) tx issuance ∧ issuance.body.isCoinbase = true := by
  have faithful := Ledger.faithful_book reached
  refine ⟨?_, ?_, ?_, (faithful here).lawful.descends_issuance logged spend⟩
  · intro organization other
    rw [Ledger.book_attempt, if_neg other]
  · rintro fresh ⟨i, input, nothing⟩
    refine (Ledger.refuses_or_valid (faithful there) fresh).resolve_right fun valid => ?_
    obtain ⟨output, spends⟩ := valid.spends_output spend input
    exact nothing output spends
  · rintro clear ⟨source, descends, missing⟩
    have fresh : ∀ t ∈ l.log there, t.id.bytes ≠ tx.id.bytes := by
      intro t also id
      by_cases equal : tx = t
      · exact absent (equal ▸ also)
      · exact clear ⟨tx, logged, t, also, id.symm, equal⟩
    refine (Ledger.refuses_or_valid (faithful there) fresh).resolve_right fun valid => missing ?_
    exact (faithful there).lawful.mem_of_descends clear valid descends

/-! The payment of thirty tried in another organization. -/

section Thirty

set_option maxRecDepth 100000

theorem apply_thirty :
    ∃ b, (granted.book "org").apply thirty = .ok (b, .applied) ∧ b.log = [grant, thirty] ∧
      ∀ owner, b.balance owner = (granted.book "org").balanceAfter payerAddress payee 30 owner := by
  have fits : ¬(payer.publicKey.address.bytes ≠ payee.bytes ∧
      coinBound ≤ (granted.book "org").balance payee + (30 : Int64).toUInt64.toNat) := by
    change ¬(_ ∧ coinBound ≤ granted.balance "org" payee + 30)
    rw [balance_granted]
    exact fun excess => absurd excess.2 (by decide +kernel)
  obtain ⟨b, applied, faithful, mode, log⟩ := payable_granted.faithful.apply_of_owed_lt
    payable_granted.valid (payable_granted.owed_lt_iff.2 fits)
  refine ⟨b, applied, ?_, fun owner => ?_⟩
  · rw [log, ← Ledger.log, log_granted]
    rfl
  · rw [faithful.balances, mode, log, payable_granted.owed_snoc]
    change (granted.book "org").balanceAfter payerKey.address payee 30 owner = _
    rw [address_payerKey]

/-- Two organizations: one logs the grant and the payment, the other a grant of its own between. -/
def twinned (twin : Transaction) : Ledger :=
  (Ledger.empty .strictUtxo).after [("org", grant), ("twin", twin), ("org", thirty)]

theorem log_twinned (twin : Transaction) : (twinned twin).log "org" = [grant, thirty] := by
  have tried : Ledger.attemptsIn "org" [("org", grant), ("twin", twin), ("org", thirty)] =
      [grant] ++ [thirty] := by simp [Ledger.attemptsIn]
  obtain ⟨b, applied, log, _⟩ := apply_thirty
  rw [Ledger.log, twinned, Ledger.book_after, Ledger.book_empty, tried, Book.after_append,
    ← book_granted, Book.after_cons, Book.after_nil, Book.attempt, applied]
  exact log

theorem book_twinned (twin : Transaction) :
    (twinned twin).book "twin" = (Book.empty .strictUtxo).after [twin] := by
  have tried : Ledger.attemptsIn "twin" [("org", grant), ("twin", twin), ("org", thirty)] =
      [twin] := by simp [Ledger.attemptsIn]
  rw [twinned, Ledger.book_after, Ledger.book_empty, tried]

theorem isCoinbase_thirty : thirty.body.isCoinbase = false := isCoinbase_paymentBody

theorem thirty_ne {tx : Transaction} (coinbase : tx.body.isCoinbase = true) : thirty ≠ tx := by
  rintro rfl
  rw [isCoinbase_thirty] at coinbase
  exact nomatch coinbase

theorem spendsFrom_thirty : thirty.SpendsFrom grant := by
  refine ⟨⟨grantId, 0⟩, ?_, ⟨100, payerAddress⟩, rfl, 0, rfl, rfl⟩
  rw [body_thirty, paymentBody_outpoints]
  exact List.mem_singleton_self _

/-- A grant of a hundred to the payee. -/
def gift : Transaction where
  id := ⟨"sf8eZxHm12gzHovi8HKkGRCjj2OtCUv7XhUcgPVlG_E=", [177, 255, 30, 103, 17, 230, 215, 104, 51,
    30, 139, 226, 240, 114, 164, 25, 16, 163, 143, 99, 173, 9, 75, 251, 94, 21, 28, 128, 245, 101, 27,
    241], rfl, by decide⟩
  body := ⟨protocolVersion, [.coinbase], [⟨100, payee⟩], 0, by decide⟩
  id_eq := by decide +kernel

theorem log_gift : (twinned gift).log "twin" = [gift] := by
  rw [Ledger.log, book_twinned]
  decide +kernel

theorem replay_refused_thirty :
    thirty ∈ (twinned gift).log "org" ∧ thirty ∉ (twinned gift).log "twin" ∧
      (twinned gift).Refuses "twin" thirty := by
  have here : thirty ∈ (twinned gift).log "org" := by simp [log_twinned]
  have there : thirty ∉ (twinned gift).log "twin" := by
    have apart : thirty ≠ gift := thirty_ne rfl
    simp [log_gift, apart]
  have id : thirty.id.bytes ≠ gift.id.bytes := by
    rw [thirty.id_eq, body_thirty, id_paymentBody_thirty]
    decide
  have id' : grant.id.bytes ≠ gift.id.bytes := by decide +kernel
  have clear : ¬Log.ShareId ((twinned gift).log "org") ((twinned gift).log "twin") := by
    simp [Log.ShareId, log_twinned, log_gift, id, id']
  have missing : grant ∉ (twinned gift).log "twin" := by
    have apart : grant ≠ gift := fun same => id' (by rw [same])
    simp [log_gift, apart]
  have descends : Log.Descends ((twinned gift).log "org") thirty grant := by
    rw [log_twinned]
    exact .single ⟨List.mem_cons_self, spendsFrom_thirty⟩
  have reached : (Ledger.empty .strictUtxo).after
      [("org", grant), ("twin", gift), ("org", thirty)] = twinned gift := rfl
  exact ⟨here, there, (replay_refused reached here there isCoinbase_thirty).2.2.1 clear
    ⟨grant, descends, missing⟩⟩

/-- Where the same grant was made in both organizations, the payment that was signed for one of them
moves the same coins in the other. -/
theorem thirty_replayed :
    thirty ∈ (twinned grant).log "org" ∧ thirty ∉ (twinned grant).log "twin" ∧
      thirty.body.isCoinbase = false ∧ (twinned grant).balance "twin" payerAddress = 100 ∧
      (twinned grant).balance "twin" payee = 0 ∧
      ∃ next, (twinned grant).apply "twin" thirty = .ok (next, .applied) ∧
        next.balance "twin" payerAddress = 70 ∧ next.balance "twin" payee = 30 := by
  have book : (twinned grant).book "twin" = granted.book "org" := by
    rw [book_twinned, book_granted]
  have log : (twinned grant).log "twin" = [grant] := by
    rw [Ledger.log, book]
    exact log_granted
  have before : ∀ owner, (twinned grant).balance "twin" owner = granted.balance "org" owner := by
    intro owner
    rw [Ledger.balance, book, Ledger.balance]
  obtain ⟨b, applied, _, balances⟩ := apply_thirty
  rw [← book] at applied
  have after := Ledger.book_insert_self (twinned grant) "twin" b
  have apart : thirty ≠ grant := thirty_ne rfl
  refine ⟨by simp [log_twinned], by simp [log, apart], isCoinbase_thirty, ?_, ?_, _,
    Ledger.apply_of_ok applied, ?_, ?_⟩
  · rw [before, balance_granted]
    decide +kernel
  · rw [before, balance_granted]
    decide +kernel
  · rw [Ledger.balance, after, balances, Book.balanceAfter, if_neg (by decide), if_pos rfl,
      ← Ledger.balance, balance_granted]
    decide +kernel
  · rw [Ledger.balance, after, balances, Book.balanceAfter, if_neg (by decide),
      if_neg (by decide), if_pos rfl, ← Ledger.balance, balance_granted]
    decide +kernel

end Thirty

end Service

end CoinLedger
