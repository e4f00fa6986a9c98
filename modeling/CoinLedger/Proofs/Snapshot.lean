import CoinLedger.Proofs.Restoration

/-!
Snapshots there and back. A snapshot holds no index, so restoring one is a replay of every log, and the
text of one is read back because whatever a log holds was once checked. Main statement: every ledger
that a history leads to is restored from the text of its snapshot, with every index of every book.
-/

namespace CoinLedger

namespace Log

variable {mode : Accounting} {log : List Transaction} {tx : Transaction}

/-- A key that opened an output verified a signature, and an issuance shows no key. -/
theorem Valid.keysOnCurve (h : Valid mode log tx) : tx.body.KeysOnCurve := by
  intro i member u shown
  cases coinbase : tx.body.isCoinbase with
  | true =>
    obtain ⟨o, inputs, _⟩ := (Body.isCoinbase_iff h.schema).1 coinbase
    rw [inputs] at member
    cases List.mem_singleton.1 member
    exact nomatch shown
  | false =>
    obtain ⟨_, _, v, also, _, signed⟩ := (h.spend coinbase).inputs.opens i member
    cases shown.symm.trans also
    exact PublicKey.isPoint_of_verify signed

end Log

@[simp] theorem Accounting.ofJson?_toJson (a : Accounting) : ofJson? a.toJson = some a := by
  have word : a.toJson.asWord? = some a.name := Json.text?_rawText a.name
  rw [ofJson?, word]
  cases a <;> rfl

theorem Table.ofJson?_toJson {α : Type} {read : Json → Option α} {write : α → Json}
    {t : Table String α} (h : ∀ e ∈ t.entries, read (write e.2) = some e.2) :
    ofJson? read (t.toJson write) = some t := by
  have entries : (t.entries.map fun e => (e.1, write e.2)).mapM
      (fun e => (read e.2).map (e.1, ·)) = some t.entries :=
    mapM_map_eq_some fun e member => by rw [h e member]; rfl
  simp only [ofJson?, toJson, Json.asMembers?_ofFields, Option.bind_eq_bind, Option.bind_some,
    entries, ofList_entries]
  rfl

/-- What holds of all values that can be read holds of those of a table that was read. -/
theorem Table.forall_value_of_ofJson? {α : Type} {read : Json → Option α} {P : α → Prop}
    (h : ∀ v a, read v = some a → P a) {v : Json} {t : Table String α}
    (found : ofJson? read v = some t) : ∀ e ∈ t.entries, P e.2 := by
  obtain ⟨members, _, found⟩ := Option.bind_eq_some_iff.1 found
  obtain ⟨entries, shown, found⟩ := Option.bind_eq_some_iff.1 found
  cases found
  refine forall_value_ofList (forall_mem_of_mapM_eq_some ?_ shown)
  intro m e one
  obtain ⟨a, value, rfl⟩ := Option.map_eq_some_iff.1 one
  exact h m.2 a value

namespace Snapshot

variable {s : Snapshot}

/-- The keys of all messages are points of the curve. -/
def KeysOnCurve (s : Snapshot) : Prop :=
  ∀ e ∈ s.organizations.entries, ∀ m ∈ e.2, m.body.KeysOnCurve

theorem ofJson?_toJson (outside : Nat) (keyed : s.KeysOnCurve) :
    ofJson? outside s.toJson = some s := by
  have record : s.toJson.record? ["created_at", "accounting", "organizations"] =
      some [.ofText s.createdAt, s.accounting.toJson,
        s.organizations.toJson fun messages => .array (messages.map Message.toJson)] :=
    Json.record?_ofFields (by simp)
  have organizations := @Table.ofJson?_toJson _
    (fun v => v.asArray?.bind fun items => items.mapM (Message.ofJson? (outside + 3)))
    (fun messages => .array (messages.map Message.toJson)) s.organizations
    fun e member => mapM_map_eq_some fun m sent => Message.ofJson?_toJson _ (keyed e member m sent)
  simp only [ofJson?, record, Option.bind_eq_bind, Option.bind_some, Json.asText?_ofText,
    Accounting.ofJson?_toJson, organizations]
  rfl

theorem built_fields (s : Snapshot) :
    ∀ f ∈ [("created_at", Json.ofText s.createdAt), ("accounting", s.accounting.toJson),
      ("organizations",
        s.organizations.toJson fun messages => .array (messages.map Message.toJson))],
      Json.Built f.2 := by
  simp only [List.forall_mem_cons]
  refine ⟨.ofText _, .ofText _, .ofFields fun f member => ?_, fun _ none => nomatch none⟩
  obtain ⟨e, _, rfl⟩ := List.mem_map.1 member
  refine .array fun v sent => ?_
  obtain ⟨m, _, rfl⟩ := List.mem_map.1 sent
  exact Json.built_message m

theorem decode?_encode (keyed : s.KeysOnCurve) : decode? s.encode = some s := by
  have read : Json.read? s.encode = some s.toJson := Json.read?_pretty s.built_fields
  rw [decode?, read, Option.bind_some, ofJson?_toJson 0 keyed]

/-- Keys that are not points of the curve are not read. -/
theorem keysOnCurve_of_ofJson? {outside : Nat} {v : Json} (h : ofJson? outside v = some s) :
    s.KeysOnCurve := by
  unfold ofJson? at h
  obtain ⟨fields, _, h⟩ := Option.bind_eq_some_iff.1 h
  split at h
  · simp only [Option.bind_eq_bind, Option.bind_eq_some_iff] at h
    obtain ⟨_, _, _, _, organizations, found, h⟩ := h
    cases h
    refine Table.forall_value_of_ofJson? (P := fun log => ∀ m ∈ log, m.body.KeysOnCurve) ?_ found
    intro v messages read
    obtain ⟨items, _, read⟩ := Option.bind_eq_some_iff.1 read
    exact forall_mem_of_mapM_eq_some (fun _ _ => Message.keysOnCurve_of_ofJson?) read
  · exact nomatch h

end Snapshot

namespace Ledger

variable {mode : Accounting} {attempts : List (String × Transaction)} {l : Ledger}
  {organization : String} {b : Book}

/-- Every listed organization has something in its log. -/
def Listed (l : Ledger) : Prop :=
  ∀ organization b, l.books.find? organization = some b → b.log ≠ []

theorem Listed.log_ne_nil (h : l.Listed) {next : Book} {tx : Transaction} {outcome : Outcome}
    (applied : (l.book organization).apply tx = .ok (next, outcome)) : next.log ≠ [] := by
  rcases Book.apply_cases applied with ⟨known, rfl, _⟩ | ⟨a, balances, _, rfl, _⟩
  · exact h organization _ (find?_of_known known)
  · simp

theorem Listed.attempt (h : l.Listed) (organization : String) (tx : Transaction) :
    (l.attempt organization tx).Listed := by
  cases answer : (l.book organization).apply tx with
  | error e =>
    rw [attempt_of_error answer]
    exact h
  | ok result =>
    obtain ⟨next, outcome⟩ := result
    rw [attempt_of_ok answer]
    intro other b found
    rw [Table.find?_insert_text] at found
    split at found
    · cases found
      exact h.log_ne_nil answer
    · exact h other b found

theorem listed_after (mode : Accounting) (attempts : List (String × Transaction)) :
    ((empty mode).after attempts).Listed := by
  have kept : ∀ l : Ledger, l.Listed → (l.after attempts).Listed := by
    induction attempts with
    | nil => exact fun _ h => h
    | cons a attempts ih => exact fun l h => ih (l.attempt a.1 a.2) (h.attempt a.1 a.2)
  exact kept (empty mode) fun _ _ none => nomatch none

theorem book_of_mem (member : (organization, b) ∈ l.books.entries) : l.book organization = b := by
  rw [book, Table.mem_entries_iff.1 member]
  rfl

theorem restorable_of_mem (reached : (empty mode).after attempts = l)
    (member : (organization, b) ∈ l.books.entries) : Snapshot.Restorable l.mode b := by
  have listed := listed_after mode attempts organization b
  rw [reached] at listed
  have logged := listed (Table.mem_entries_iff.1 member)
  have same : l.mode = mode := by rw [← reached, mode_after]; rfl
  have attempted : b = (Book.empty mode).after (attemptsIn organization attempts) := by
    rw [← book_of_mem member, ← reached, book_after, book_empty]
  rw [attempted] at logged
  rw [same, attempted]
  exact Snapshot.restorable_after mode _ logged

theorem keysOnCurve_capture (reached : (empty mode).after attempts = l) (createdAt : String) :
    (Snapshot.capture createdAt l).KeysOnCurve := by
  intro e listed m sent
  rw [Snapshot.entries_capture] at listed
  obtain ⟨⟨organization, b⟩, member, rfl⟩ := List.mem_map.1 listed
  obtain ⟨tx, logged, rfl⟩ := List.mem_map.1 sent
  have faithful := faithful_book reached organization
  rw [book_of_mem member] at faithful
  obtain ⟨_, valid⟩ := faithful.lawful.valid_of_mem logged
  exact valid.keysOnCurve

end Ledger

/-- Whatever was tried on a new ledger, in organizations of any names: the text of its snapshot reads
back as that snapshot, and the snapshot is restored to the ledger itself, which is to say with the same
mode, the same organizations and, in each, the same log and the same indices, every hash in its
spelling. -/
theorem Snapshot.round_trip (createdAt : String) (mode : Accounting)
    (attempts : List (String × Transaction)) :
    decode? (capture createdAt ((Ledger.empty mode).after attempts)).encode =
        some (capture createdAt ((Ledger.empty mode).after attempts)) ∧
      (capture createdAt ((Ledger.empty mode).after attempts)).restore =
        .ok ((Ledger.empty mode).after attempts) :=
  ⟨decode?_encode (Ledger.keysOnCurve_capture rfl createdAt),
    restore_capture createdAt fun _ member => Ledger.restorable_of_mem rfl member⟩

end CoinLedger
