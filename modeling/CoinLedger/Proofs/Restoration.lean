import CoinLedger.Proofs.Ledger.Faithful
import CoinLedger.Proofs.Ledger.Replay
import CoinLedger.Proofs.Message
import CoinLedger.Proofs.Table
import CoinLedger.Snapshot

/-!
Restoring a snapshot, whoever wrote it. The logs go into one ledger one after the other, yet each of
them is received as if it were alone, and an id that was there before is passed over in silence. Main
statement: which snapshots are restored, and the normal form in which they are captured again, where
every log has each id once and which is restored to the same ledger.
-/

namespace CoinLedger

namespace Message

/-- The transaction that a message is about, whatever id it advertises. -/
def content (m : Message) : Transaction := .ofBody m.body

theorem transaction_eq_ok {m : Message} {tx : Transaction} (h : m.transaction = .ok tx) :
    tx = m.content ∧ m.content.id.bytes = m.id.bytes := by
  unfold transaction at h
  cases schema : m.body.checkSchema with
  | error cause =>
    rw [schema] at h
    exact nomatch h
  | ok =>
    rw [schema] at h
    change (if _ then _ else _) = _ at h
    split at h
    · next same =>
      cases h
      exact ⟨rfl, same⟩
    · exact nomatch h

@[simp] theorem content_ofTransaction (tx : Transaction) : (ofTransaction tx).content = tx := by
  obtain ⟨id, body, rfl⟩ := tx
  rfl

/-- Whether two messages advertise one id. -/
def sameId (m n : Message) : Bool := m.id.bytes == n.id.bytes

/-- The messages without those that repeat the id of an earlier one, each with its id as it is spelled
when it is computed. -/
def normalLog (messages : List Message) : List Message :=
  (messages.eraseDupsBy sameId).map fun m => .ofTransaction m.content

theorem eraseDups_loop_ne_nil {kept messages : List Message} (some : kept ≠ [] ∨ messages ≠ []) :
    List.eraseDupsBy.loop sameId messages kept ≠ [] := by
  induction messages generalizing kept with
  | nil =>
    rw [List.eraseDupsBy.loop]
    simpa using some
  | cons m rest ih =>
    rw [List.eraseDupsBy.loop]
    cases repeated : kept.any (sameId m) with
    | true =>
      refine ih (.inl ?_)
      rintro rfl
      exact nomatch repeated
    | false => exact ih (.inl (List.cons_ne_nil m kept))

/-- No organization loses all its messages. -/
theorem normalLog_eq_nil_iff {messages : List Message} : normalLog messages = [] ↔ messages = [] := by
  constructor
  · intro none
    refine Classical.byContradiction fun some => ?_
    exact eraseDups_loop_ne_nil (.inr some) (List.map_eq_nil_iff.1 none)
  · rintro rfl
    rfl

end Message

namespace Book

variable {mode : Accounting} {b c : Book} {m : Message} {messages : List Message}

/-- The book with the transaction of a message, whose form and id are checked before it is applied. -/
def receive (b : Book) (m : Message) : Except CashError Book :=
  match CashError.ofForm m.transaction with
  | .error cause => .error cause
  | .ok tx => (b.apply tx).map Prod.fst

/-- The book that results from receiving messages in order, if none is refused. -/
def receiveAll (b : Book) : List Message → Except CashError Book
  | [] => .ok b
  | m :: rest =>
    match b.receive m with
    | .error cause => .error cause
    | .ok next => next.receiveAll rest

theorem receive_eq_ok (h : b.receive m = .ok c) :
    m.content.id.bytes = m.id.bytes ∧ ∃ outcome, b.apply m.content = .ok (c, outcome) := by
  unfold receive at h
  cases checked : m.transaction with
  | error cause =>
    rw [checked] at h
    exact nomatch h
  | ok tx =>
    obtain ⟨rfl, same⟩ := Message.transaction_eq_ok checked
    rw [checked] at h
    cases applied : b.apply m.content with
    | error cause =>
      simp only [CashError.ofForm, applied] at h
      exact nomatch h
    | ok result =>
      simp only [CashError.ofForm, applied] at h
      cases h
      exact ⟨same, result.2, rfl⟩

theorem receiveAll_cons_eq_ok (h : b.receiveAll (m :: messages) = .ok c) :
    ∃ next, b.receive m = .ok next ∧ next.receiveAll messages = .ok c := by
  rw [receiveAll] at h
  cases received : b.receive m with
  | error cause =>
    rw [received] at h
    exact nomatch h
  | ok next =>
    rw [received] at h
    exact ⟨next, rfl, h⟩

/-- The book that messages lead to, whatever ids they advertise and whatever is refused on the way. -/
def ofMessages (mode : Accounting) (messages : List Message) : Book :=
  (empty mode).after (messages.map Message.content)

/-- Messages that are all received are attempts, of which none was refused. -/
theorem eq_after_of_receiveAll (h : b.receiveAll messages = .ok c) :
    c = b.after (messages.map Message.content) := by
  induction messages generalizing b with
  | nil =>
    cases h
    rfl
  | cons m rest ih =>
    obtain ⟨next, received, later⟩ := receiveAll_cons_eq_ok h
    obtain ⟨_, outcome, applied⟩ := receive_eq_ok received
    have tried : b.attempt m.content = next := by rw [attempt, applied]
    rw [List.map_cons, after_cons, tried]
    exact ih later

theorem eq_ofMessages (h : (empty mode).receiveAll messages = .ok b) : b = ofMessages mode messages :=
  eq_after_of_receiveAll h

/-- The messages of a log lead to the book that the log itself leads to. -/
theorem receiveAll_map_ofTransaction {log : List Transaction}
    (formed : ∀ tx ∈ log, tx.body.checkSchema = .ok ()) :
    b.receiveAll (log.map Message.ofTransaction) = b.applyAll log := by
  induction log generalizing b with
  | nil => rfl
  | cons tx rest ih =>
    have received : b.receive (.ofTransaction tx) = (b.apply tx).map Prod.fst := by
      rw [receive, Message.transaction_ofTransaction (formed tx (by simp))]
      rfl
    rw [List.map_cons, receiveAll, received, applyAll]
    cases b.apply tx with
    | error cause => rfl
    | ok result => exact ih fun t logged => formed t (by simp [logged])

theorem Faithful.receive (h : b.Faithful) (received : b.receive m = .ok c) :
    c.Faithful ∧ m.content.id.bytes = m.id.bytes ∧
      c.log =
        if b.log.any fun t => m.id.bytes == t.id.bytes then b.log else b.log ++ [m.content] := by
  obtain ⟨same, outcome, applied⟩ := receive_eq_ok received
  have known : (b.positions.find? m.content.id).isSome =
      b.log.any fun t => m.id.bytes == t.id.bytes := by
    rw [Bool.eq_iff_iff, Option.isSome_iff_ne_none, ne_eq, h.fresh_iff, same, List.any_eq_true]
    simp only [beq_iff_eq, eq_comm (a := m.id.bytes), ne_eq, Classical.not_forall, Classical.not_not,
      exists_prop]
  rcases apply_cases applied with ⟨old, rfl, _⟩ | ⟨a, balances, accepts, rfl, _⟩
  · rw [known] at old
    exact ⟨h, same, by rw [if_pos old]⟩
  · have new := known.symm.trans (Option.isSome_eq_false_iff.2 (by simp [accepts.fresh]))
    refine ⟨h.append_of_accepts accepts, same, ?_⟩
    rw [new]
    rfl

/-- The log that messages leave behind. What has been kept so far, the last first, is the log so far,
under the ids that its messages advertise. -/
theorem Faithful.log_of_receiveAll (h : b.Faithful) (kept : List Message)
    (log : b.log = kept.reverse.map Message.content)
    (ids : ∀ k ∈ kept, k.content.id.bytes = k.id.bytes)
    (received : b.receiveAll messages = .ok c) :
    c.log = (List.eraseDupsBy.loop Message.sameId messages kept).map Message.content := by
  induction messages generalizing b kept with
  | nil =>
    cases received
    exact log
  | cons m rest ih =>
    obtain ⟨next, first, later⟩ := receiveAll_cons_eq_ok received
    obtain ⟨faithful, id, appended⟩ := h.receive first
    have known : (b.log.any fun t => m.id.bytes == t.id.bytes) = kept.any (Message.sameId m) := by
      rw [log, List.any_map, List.any_reverse, Bool.eq_iff_iff, List.any_eq_true, List.any_eq_true]
      refine exists_congr fun k => and_congr_right fun member => ?_
      rw [Function.comp_apply, ids k member, Message.sameId]
    rw [known] at appended
    rw [List.eraseDupsBy.loop]
    cases repeated : kept.any (Message.sameId m) with
    | true =>
      rw [repeated, if_pos rfl] at appended
      exact ih faithful kept (appended.trans log) ids later
    | false =>
      rw [repeated] at appended
      refine ih faithful (m :: kept) ?_ (List.forall_mem_cons.2 ⟨id, ids⟩) later
      simp [appended, log]

/-- What is captured of a book that messages lead to. -/
theorem normalLog_eq (h : (empty mode).receiveAll messages = .ok b) :
    b.log.map Message.ofTransaction = Message.normalLog messages := by
  have log := (faithful_empty mode).log_of_receiveAll [] rfl (fun _ none => nomatch none) h
  rw [log, List.map_map]
  rfl

end Book

/-- Putting in the book that is there makes no difference to what is applied next. -/
theorem Ledger.apply_insert_book (l : Ledger) (organization : String) (tx : Transaction) :
    (⟨l.mode, l.books.insert organization (l.book organization)⟩ : Ledger).apply organization tx =
      l.apply organization tx := by
  rw [apply, apply, book_insert_self]
  simp only [Table.insert_insert]

namespace Snapshot

variable {s : Snapshot} {mode : Accounting} {l last : Ledger} {messages : List Message}
  {logs : List (String × List Message)}

theorem replayLog_insert (l : Ledger) (organization : String) (b : Book) (messages : List Message) :
    replayLog organization ⟨l.mode, l.books.insert organization b⟩ messages =
      match b.receiveAll messages with
      | .error cause => .error ⟨organization, cause⟩
      | .ok c => .ok ⟨l.mode, l.books.insert organization c⟩ := by
  induction messages generalizing b with
  | nil => rfl
  | cons m rest ih =>
    rw [replayLog, Book.receiveAll, Book.receive]
    cases CashError.ofForm m.transaction with
    | error cause => rfl
    | ok tx =>
      simp only [Ledger.apply, Ledger.book_insert_self]
      cases b.apply tx with
      | error cause => rfl
      | ok result =>
        simp only [Table.insert_insert]
        exact ih result.1

/-- In a ledger of many organizations messages are received as in the book on its own. -/
theorem replayLog_eq (l : Ledger) (organization : String) (some : messages ≠ []) :
    replayLog organization l messages =
      match (l.book organization).receiveAll messages with
      | .error cause => .error ⟨organization, cause⟩
      | .ok b => .ok ⟨l.mode, l.books.insert organization b⟩ := by
  rw [← replayLog_insert]
  cases messages with
  | nil => exact absurd rfl some
  | cons m rest => simp only [replayLog, Ledger.apply_insert_book]

/-- The messages of every organization are received by an empty book. -/
def Receivable (mode : Accounting) (logs : List (String × List Message)) : Prop :=
  ∀ e ∈ logs, (Book.empty mode).receiveAll e.2 = .ok (.ofMessages mode e.2)

/-- The books of the organizations that have messages. -/
def booksOf (mode : Accounting) (logs : List (String × List Message)) : List (String × Book) :=
  (logs.filter fun e => e.2 ≠ []).map fun e => (e.1, .ofMessages mode e.2)

/-- The logs of new organizations, one after the other, become their books. -/
theorem foldlM_replayLog_eq_ok_iff (apart : logs.Pairwise fun e f => e.1 ≠ f.1)
    (new : ∀ e ∈ logs, l.books.find? e.1 = none) :
    logs.foldlM (fun l e => replayLog e.1 l e.2) l = .ok last ↔
      Receivable l.mode logs ∧
        last = ⟨l.mode, (booksOf l.mode logs).foldl (fun t e => t.insert e.1 e.2) l.books⟩ := by
  induction logs generalizing l with
  | nil => simp [Receivable, booksOf, pure, Except.pure, eq_comm]
  | cons e logs ih =>
    obtain ⟨first, apart⟩ := List.pairwise_cons.1 apart
    obtain ⟨absent, new⟩ := List.forall_mem_cons.1 new
    rw [List.foldlM_cons, Receivable, List.forall_mem_cons, ← Receivable]
    by_cases none : e.2 = []
    · have books : booksOf l.mode (e :: logs) = booksOf l.mode logs := by simp [booksOf, none]
      have received : (Book.empty l.mode).receiveAll [] = .ok (.ofMessages l.mode []) := rfl
      rw [none, books, and_iff_right received]
      exact ih apart new
    · have books : booksOf l.mode (e :: logs) =
          (e.1, .ofMessages l.mode e.2) :: booksOf l.mode logs := by simp [booksOf, none]
      have empty : l.book e.1 = .empty l.mode := by
        rw [Ledger.book, absent]
        rfl
      rw [replayLog_eq l e.1 none, empty, books]
      cases received : (Book.empty l.mode).receiveAll e.2 with
      | error cause => simp [bind, Except.bind]
      | ok b =>
        cases Book.eq_ofMessages received
        have later : ∀ f ∈ logs,
            (l.books.insert e.1 (.ofMessages l.mode e.2)).find? f.1 = Option.none := by
          intro f member
          rw [Table.find?_insert_text, if_neg fun same => first f member same.symm]
          exact new f member
        rw [and_iff_right rfl]
        exact ih (l := ⟨l.mode, l.books.insert e.1 (.ofMessages l.mode e.2)⟩) apart later

theorem restore_eq_ok_iff :
    s.restore = .ok l ↔
      Receivable s.accounting s.organizations.entries ∧
        l = ⟨s.accounting, .ofList (booksOf s.accounting s.organizations.entries)⟩ :=
  foldlM_replayLog_eq_ok_iff (l := .empty s.accounting)
    (s.organizations.entries_pairwise.imp fun apart same => apart (Table.key_text_iff.2 same))
    fun _ _ => rfl

theorem entries_capture (createdAt : String) (l : Ledger) :
    (capture createdAt l).organizations.entries =
      l.books.entries.map fun e => (e.1, e.2.log.map Message.ofTransaction) :=
  Table.entries_ofList (List.pairwise_map.2 l.books.ordered)

/-- A book that its own log leads to, and that has one. -/
structure Restorable (mode : Accounting) (b : Book) : Prop where
  logged : b.log ≠ []
  formed : ∀ tx ∈ b.log, tx.body.checkSchema = .ok ()
  replayed : Book.replay mode b.log = .ok b

theorem restorable_after (mode : Accounting) (txs : List Transaction)
    (logged : ((Book.empty mode).after txs).log ≠ []) :
    Restorable mode ((Book.empty mode).after txs) where
  logged := logged
  formed tx member := by
    obtain ⟨_, valid⟩ := (Book.faithful_after mode txs).lawful.valid_of_mem member
    exact valid.schema
  replayed := by
    have replayable := Book.replayable_after mode txs
    rwa [Book.Replayable, Book.mode_after] at replayable

/-- The messages of a log lead back to its book. -/
theorem Restorable.receiveAll {b : Book} (h : Restorable mode b) :
    (Book.empty mode).receiveAll (b.log.map Message.ofTransaction) = .ok b := by
  rw [Book.receiveAll_map_ofTransaction h.formed]
  exact h.replayed

theorem restore_capture (createdAt : String)
    (restorable : ∀ e ∈ l.books.entries, Restorable l.mode e.2) :
    (capture createdAt l).restore = .ok l := by
  have received : ∀ e ∈ l.books.entries,
      (Book.empty l.mode).receiveAll (e.2.log.map Message.ofTransaction) = .ok e.2 :=
    fun e listed => (restorable e listed).receiveAll
  have books : booksOf l.mode (l.books.entries.map fun e =>
      (e.1, e.2.log.map Message.ofTransaction)) = l.books.entries := by
    rw [booksOf, List.filter_eq_self.2, List.map_map]
    · refine (List.map_congr_left fun e listed => ?_).trans (List.map_id _)
      exact Prod.ext rfl (Book.eq_ofMessages (received e listed)).symm
    · intro e member
      obtain ⟨f, listed, rfl⟩ := List.mem_map.1 member
      simp [(restorable f listed).logged]
  rw [restore_eq_ok_iff, entries_capture]
  refine ⟨?_, ?_⟩
  · intro e member
    obtain ⟨f, listed, rfl⟩ := List.mem_map.1 member
    exact (received f listed).trans (congrArg _ (Book.eq_ofMessages (received f listed)))
  · change l = ⟨l.mode, .ofList (booksOf l.mode _)⟩
    rw [books, Table.ofList_entries]

/-- The books of a restored ledger. -/
theorem entries_restore (h : s.restore = .ok l) :
    l.books.entries = booksOf s.accounting s.organizations.entries := by
  obtain ⟨_, rfl⟩ := restore_eq_ok_iff.1 h
  exact Table.entries_ofList (List.pairwise_map.2 (s.organizations.ordered.filter _))

theorem restorable_of_restore (h : s.restore = .ok l) :
    ∀ e ∈ l.books.entries, Restorable l.mode e.2 := by
  intro e member
  rw [entries_restore h] at member
  obtain ⟨received, rfl⟩ := restore_eq_ok_iff.1 h
  obtain ⟨f, listed, rfl⟩ := List.mem_map.1 member
  obtain ⟨listed, some⟩ := List.mem_filter.1 listed
  refine restorable_after s.accounting _ fun none => ?_
  have captured := Book.normalLog_eq (received f listed)
  rw [Book.ofMessages, none, List.map_nil] at captured
  exact of_decide_eq_true some (Message.normalLog_eq_nil_iff.1 captured.symm)

/-- Every log in normal form, and none that is empty. -/
def normalLogs (logs : List (String × List Message)) : List (String × List Message) :=
  (logs.map fun e => (e.1, Message.normalLog e.2)).filter fun e => e.2 ≠ []

theorem normalLogs_eq (logs : List (String × List Message)) :
    normalLogs logs =
      (logs.filter fun e => e.2 ≠ []).map fun e => (e.1, Message.normalLog e.2) := by
  rw [normalLogs, List.filter_map]
  refine congrArg _ (List.filter_congr fun e _ => ?_)
  simp [Message.normalLog_eq_nil_iff]

def normal (createdAt : String) (s : Snapshot) : Snapshot where
  createdAt := createdAt
  accounting := s.accounting
  organizations := .ofList (normalLogs s.organizations.entries)

theorem capture_eq_normal (h : s.restore = .ok l) (createdAt : String) :
    capture createdAt l = s.normal createdAt := by
  have entries := entries_restore h
  obtain ⟨received, rfl⟩ := restore_eq_ok_iff.1 h
  have logs : (booksOf s.accounting s.organizations.entries).map
      (fun e => (e.1, e.2.log.map Message.ofTransaction)) =
        normalLogs s.organizations.entries := by
    rw [normalLogs_eq, booksOf, List.map_map]
    refine List.map_congr_left fun e member => ?_
    exact Prod.ext rfl (Book.normalLog_eq (received e (List.mem_filter.1 member).1))
  rw [capture, entries, logs]
  rfl

/-- A snapshot is restored exactly if every organization's messages, taken on their own and in order,
are all received by an empty book of the snapshot's mode. The ledger is captured in normal form: the
mode is the same, and every organization that has messages has the same ones in the same order, less
those whose id was there before, every id in its computed spelling. To restore that and to capture it
again gives the same ledger and the same logs. -/
theorem restore_exact (s : Snapshot) :
    ((∃ l, s.restore = .ok l) ↔
      ∀ e ∈ s.organizations.entries, ∃ b, (Book.empty s.accounting).receiveAll e.2 = .ok b) ∧
    ∀ l, s.restore = .ok l → ∀ now later,
      capture now l = s.normal now ∧
      (capture now l).restore = .ok l ∧
      capture later l = { capture now l with createdAt := later } := by
  refine ⟨⟨?_, ?_⟩, ?_⟩
  · rintro ⟨l, restored⟩ e listed
    exact ⟨_, (restore_eq_ok_iff.1 restored).1 e listed⟩
  · intro received
    refine ⟨_, restore_eq_ok_iff.2 ⟨fun e listed => ?_, rfl⟩⟩
    obtain ⟨b, all⟩ := received e listed
    rw [all, Book.eq_ofMessages all]
  · intro l restored now later
    exact ⟨capture_eq_normal restored now,
      restore_capture now (restorable_of_restore restored), rfl⟩

end Snapshot

end CoinLedger
