import CoinLedger.Proofs.Snapshot
import CoinLedger.Wallet.State

/-!
The state file there and back. Main statement: what a wallet saves of a ledger that a history led to is
read again, and restored to that ledger.
-/

namespace CoinLedger

/-- The public keys of all organizers are points of the curve, as keys that were read are. -/
def KeysOnCurve (organizers : Table String PublicKey) : Prop :=
  ∀ organization key, organizers.find? organization = some key → key.isPoint = true

theorem KeysOnCurve.empty : KeysOnCurve .empty := fun _ _ none => nomatch none

theorem KeysOnCurve.insert {organizers : Table String PublicKey} (h : KeysOnCurve organizers)
    (organization : String) {key : PublicKey} (point : key.isPoint = true) :
    KeysOnCurve (organizers.insert organization key) := by
  intro other found same
  rw [Table.find?_insert_text] at same
  split at same
  · cases same
    exact point
  · exact h other found same

namespace Ledger

/-- Some history leads to the ledger. -/
def Reached (l : Ledger) : Prop := ∃ attempts, (empty l.mode).after attempts = l

theorem Reached.empty (mode : Accounting) : (Ledger.empty mode).Reached := ⟨[], rfl⟩

theorem Reached.attempt {l : Ledger} (h : l.Reached) (organization : String) (tx : Transaction) :
    (l.attempt organization tx).Reached := by
  obtain ⟨attempts, reached⟩ := h
  have more : (Ledger.empty l.mode).after (attempts ++ [(organization, tx)]) =
      ((Ledger.empty l.mode).after attempts).attempt organization tx := List.foldl_append
  exact ⟨attempts ++ [(organization, tx)], by rw [mode_attempt, more, reached]⟩

end Ledger

/-- The bytes are a state file with the ledger in it. -/
def WalletState.Holds (bytes : List UInt8) (l : Ledger) : Prop :=
  ∃ organizers now, KeysOnCurve organizers ∧ l.Reached ∧
    bytes = (WalletState.mk organizers (.capture now l)).encode

namespace WalletState

theorem decode?_encode {s : WalletState} (organizers : KeysOnCurve s.organizers)
    (keyed : s.snapshot.KeysOnCurve) : decode? s.encode = some s := by
  have read : Json.read? s.encode = some s.toJson := by
    refine Json.read?_pretty ?_
    simp only [List.forall_mem_cons]
    refine ⟨.ofFields fun f member => ?_, .ofFields s.snapshot.built_fields, fun _ none => nomatch none⟩
    obtain ⟨e, _, rfl⟩ := List.mem_map.1 member
    exact .ofText _
  have record : s.toJson.record? ["organizers", "ledger"] =
      some [s.organizers.toJson PublicKey.toJson, s.snapshot.toJson] :=
    Json.record?_ofFields (by simp)
  have table : Table.ofJson? PublicKey.ofJson? (s.organizers.toJson PublicKey.toJson) =
      some s.organizers := by
    refine Table.ofJson?_toJson fun e member => PublicKey.ofJson?_toJson ?_
    exact organizers e.1 e.2 (Table.mem_entries_iff.1 member)
  rw [decode?, read, Option.bind_some]
  simp only [ofJson?, record, Option.bind_eq_bind, Option.bind_some, table,
    Snapshot.ofJson?_toJson 1 keyed]
  rfl

/-- A state that was read, from whatever bytes, has no keys but points of the curve. -/
theorem keysOnCurve_of_decode? {bytes : List UInt8} {s : WalletState} (h : decode? bytes = some s) :
    KeysOnCurve s.organizers ∧ s.snapshot.KeysOnCurve := by
  obtain ⟨v, _, read⟩ := Option.bind_eq_some_iff.1 h
  unfold ofJson? at read
  obtain ⟨fields, _, read⟩ := Option.bind_eq_some_iff.1 read
  split at read
  · simp only [Option.bind_eq_bind, Option.bind_eq_some_iff] at read
    obtain ⟨organizers, keys, snapshot, kept, read⟩ := read
    cases read
    have points := Table.forall_value_of_ofJson? (P := fun key => key.isPoint = true)
      (fun _ _ => PublicKey.isPoint_of_ofJson?) keys
    refine ⟨fun organization key found => ?_, Snapshot.keysOnCurve_of_ofJson? kept⟩
    exact points (organization, key) (Table.mem_entries_iff.2 found)
  · exact nomatch read

/-- Reading the file back gives the organizers, and the ledger with every index of every book. -/
theorem Holds.decode? {bytes : List UInt8} {l : Ledger} (h : Holds bytes l) :
    ∃ s, decode? bytes = some s ∧ KeysOnCurve s.organizers ∧ s.snapshot.restore = .ok l ∧
      ∃ now, s.snapshot = .capture now l := by
  obtain ⟨organizers, now, keys, ⟨attempts, reached⟩, rfl⟩ := h
  exact ⟨_, decode?_encode keys (Ledger.keysOnCurve_capture reached now), keys,
    Snapshot.restore_capture now fun _ member => Ledger.restorable_of_mem reached member, now, rfl⟩

end WalletState

end CoinLedger
