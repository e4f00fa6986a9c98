import CoinLedger.Json.Record
import CoinLedger.Proofs.Json.Escape
import CoinLedger.Proofs.Json.Numeral
import CoinLedger.Proofs.Sums

/-!
Values read back out of the documents that were made of them. Main statement: a record of fields with
names of their own gives back its fields.
-/

namespace CoinLedger

theorem mapM_eq_some {α β : Type} {l : List α} {f : α → Option β} {g : α → β}
    (h : ∀ a ∈ l, f a = some (g a)) : l.mapM f = some (l.map g) := by
  induction l with
  | nil => rfl
  | cons a l ih =>
    rw [List.mapM_cons, h a (by simp), ih fun b hb => h b (by simp [hb])]
    rfl

theorem mapM_map_eq_some {α β : Type} {l : List α} {f : β → Option α} {g : α → β}
    (h : ∀ a ∈ l, f (g a) = some a) : (l.map g).mapM f = some l := by
  rw [List.mapM_map, mapM_eq_some (f := f ∘ g) (g := id) h, List.map_id]

/-- What holds of every value that is read, holds of all that are read along a list. -/
theorem forall_mem_of_mapM_eq_some {α β : Type} {f : α → Option β} {P : β → Prop}
    (h : ∀ a b, f a = some b → P b) {l : List α} {bs : List β} (read : l.mapM f = some bs) :
    ∀ b ∈ bs, P b := by
  induction l generalizing bs with
  | nil =>
    cases read
    exact fun _ none => nomatch none
  | cons a l ih =>
    rw [List.mapM_cons] at read
    obtain ⟨b, first, read⟩ := Option.bind_eq_some_iff.1 read
    obtain ⟨rest, later, read⟩ := Option.bind_eq_some_iff.1 read
    cases read
    exact List.forall_mem_cons.2 ⟨h a b first, ih later⟩

namespace Json

@[simp] theorem asText?_ofText (s : String) : (ofText s).asText? = some s := text?_rawText s

theorem asInt?_ofInt {least greatest n : Int} (lower : least ≤ n) (upper : n ≤ greatest) :
    (ofInt n).asInt? least greatest = some n := by
  rw [ofInt, asInt?, Numeral.integer?_ofInt]
  simp [Option.filter, lower, upper]

@[simp] theorem asUInt64?_ofInt (n : UInt64) : (ofInt n.toNat).asUInt64? = some n := by
  have bound := n.toNat_lt
  rw [asUInt64?, asInt?_ofInt (by omega) (by simp only [UInt64.size]; omega)]
  simp

@[simp] theorem asUInt32?_ofInt (n : UInt32) : (ofInt n.toNat).asUInt32? = some n := by
  have bound := n.toNat_lt
  rw [asUInt32?, asInt?_ofInt (by omega) (by simp only [UInt32.size]; omega)]
  simp

@[simp] theorem asInt64?_ofInt (n : Int64) : (ofInt n.toInt).asInt64? = some n := by
  rw [asInt64?, asInt?_ofInt n.minValue_le_toInt n.toInt_le]
  simp

@[simp] theorem asMembers?_ofFields (fields : List (String × Json)) :
    (ofFields fields).asMembers? = some fields := by
  rw [ofFields, asMembers?]
  exact mapM_map_eq_some fun f _ => by simp

theorem valuesOf_eq (name : String) (fields : List (String × Json)) :
    valuesOf name fields = (fields.filter fun f => f.1 = name).map Prod.snd := by
  unfold valuesOf
  induction fields with
  | nil => rfl
  | cons f fields ih => by_cases same : f.1 = name <;> simp [same, ih]

theorem required?_of_mem {fields : List (String × Json)}
    (apart : fields.Pairwise fun f g => f.1 ≠ g.1) {f : String × Json} (member : f ∈ fields) :
    required? f.1 fields = some f.2 := by
  have only : fields.filter (fun g => g.1 = f.1) = [f] := by
    refine filter_eq_singleton member (Eq.refl f.1) ?_
    exact apart.imp fun apart both => apart (both.1.trans both.2.symm)
  rw [required?, valuesOf_eq, only]
  rfl

theorem record?_ofFields {fields : List (String × Json)}
    (apart : fields.Pairwise fun f g => f.1 ≠ g.1) :
    (ofFields fields).record? (fields.map Prod.fst) = some (fields.map Prod.snd) := by
  have members : (ofFields fields).record? (fields.map Prod.fst) =
      (ofFields fields).asMembers?.bind fun ms => (fields.map Prod.fst).mapM (required? · ms) := rfl
  rw [members, asMembers?_ofFields, Option.bind_some, List.mapM_map]
  exact mapM_eq_some fun f member => required?_of_mem apart member

end Json

end CoinLedger
