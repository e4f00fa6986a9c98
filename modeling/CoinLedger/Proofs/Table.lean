import CoinLedger.Proofs.Sums
import CoinLedger.Table

/-!
Tables and their entries. Main statements: a table is made again of its own entries, two tables with
the same entry for every key are one table, under texts even two that answer every look-up alike, and
what is gathered in a table of its own may be put into another at once or entry by entry.
-/

namespace CoinLedger.Table

section Keys

variable {κ α : Type} [Keyed κ]

theorem entries_pairwise (t : Table κ α) :
    t.entries.Pairwise fun e f => Keyed.key e.1 ≠ Keyed.key f.1 := by
  refine t.ordered.imp fun less same => ?_
  rw [keyOrder_eq_iff.2 same] at less
  exact nomatch less

theorem keys_pairwise (t : Table κ α) : t.keys.Pairwise fun k k' => Keyed.key k ≠ Keyed.key k' :=
  List.pairwise_map.2 t.entries_pairwise

theorem eq_of_entries {t u : Table κ α} (h : t.entries = u.entries) : t = u := by
  obtain ⟨entries, ordered⟩ := t
  cases h
  rfl

/-- The entry of a key, with the key as it is spelled there. -/
def slot? (t : Table κ α) (k : κ) : Option (κ × α) :=
  t.entries.find? fun e => keyOrder k e.1 == .eq

theorem find?_eq_map_slot? (t : Table κ α) (k : κ) : t.find? k = (t.slot? k).map Prod.snd := rfl

theorem slot?_eq_some_iff {t : Table κ α} {k : κ} {e : κ × α} :
    t.slot? k = some e ↔ e ∈ t.entries ∧ Keyed.key k = Keyed.key e.1 := by
  constructor
  · intro h
    have same := List.find?_some h
    rw [beq_iff_eq, keyOrder_eq_iff] at same
    exact ⟨List.mem_of_find?_eq_some h, same⟩
  · rintro ⟨member, same⟩
    have only : t.entries.filter (fun f => keyOrder k f.1 = .eq) = [e] := by
      refine filter_eq_singleton member (keyOrder_eq_iff.2 same) (t.entries_pairwise.imp ?_)
      exact fun apart both =>
        apart ((keyOrder_eq_iff.1 both.1).symm.trans (keyOrder_eq_iff.1 both.2))
    rw [slot?, ← List.head?_filter]
    exact congrArg List.head? only

theorem find?_eq_some_iff {t : Table κ α} {k : κ} {v : α} :
    t.find? k = some v ↔ ∃ e ∈ t.entries, Keyed.key k = Keyed.key e.1 ∧ e.2 = v := by
  rw [find?_eq_map_slot?, Option.map_eq_some_iff]
  simp only [slot?_eq_some_iff, and_assoc]

theorem find?_of_mem {t : Table κ α} {e : κ × α} (member : e ∈ t.entries) :
    t.find? e.1 = some e.2 := find?_eq_some_iff.2 ⟨e, member, rfl, rfl⟩

theorem mem_keys_of_find?_eq_some {t : Table κ α} {k : κ} {v : α} (h : t.find? k = some v) :
    ∃ k' ∈ t.keys, Keyed.key k = Keyed.key k' := by
  obtain ⟨e, member, same, _⟩ := find?_eq_some_iff.1 h
  exact ⟨e.1, List.mem_map_of_mem member, same⟩

/-- The values of a table are those of any list with the same look-ups and with keys of its own. -/
theorem values_perm {t : Table κ α} {l : List (κ × α)}
    (apart : l.Pairwise fun e f => Keyed.key e.1 ≠ Keyed.key f.1)
    (same : ∀ k v, t.find? k = some v ↔ ∃ e ∈ l, Keyed.key k = Keyed.key e.1 ∧ e.2 = v) :
    (t.entries.map Prod.snd).Perm (l.map Prod.snd) := by
  -- the lists are compared with keys in place of their spellings
  let told : κ × α → (String × Int) × α := fun e => (Keyed.key e.1, e.2)
  have nodup : ∀ m : List (κ × α), m.Pairwise (fun e f => Keyed.key e.1 ≠ Keyed.key f.1) →
      (m.map told).Nodup := by
    intro m apart
    exact List.pairwise_map.2 (apart.imp fun differ equal => differ (congrArg Prod.fst equal))
  have perm : (t.entries.map told).Perm (l.map told) := by
    refine (List.perm_ext_iff_of_nodup (nodup _ t.entries_pairwise) (nodup _ apart)).2 ?_
    intro c
    simp only [List.mem_map]
    constructor
    · rintro ⟨e, member, rfl⟩
      obtain ⟨f, listed, key, value⟩ := (same e.1 e.2).1 (find?_of_mem member)
      exact ⟨f, listed, Prod.ext key.symm value⟩
    · rintro ⟨f, listed, rfl⟩
      obtain ⟨e, member, key, value⟩ := find?_eq_some_iff.1 ((same f.1 f.2).2 ⟨f, listed, rfl, rfl⟩)
      exact ⟨e, member, Prod.ext key.symm value⟩
  have values := perm.map Prod.snd
  rw [List.map_map, List.map_map] at values
  exact values

/-- A table is told by its entries, key by key. -/
theorem ext_slot? {t u : Table κ α} (h : ∀ k, t.slot? k = u.slot? k) : t = u := by
  have members : ∀ e, e ∈ t.entries ↔ e ∈ u.entries := by
    intro e
    have same : t.slot? e.1 = some e ↔ u.slot? e.1 = some e := by rw [h]
    simpa [slot?_eq_some_iff] using same
  have nodup : ∀ t : Table κ α, t.entries.Nodup := fun t =>
    t.entries_pairwise.imp fun apart same => apart (by rw [same])
  have perm := (List.perm_ext_iff_of_nodup (nodup t) (nodup u)).2 members
  refine eq_of_entries (perm.eq_of_pairwise ?_ t.ordered u.ordered)
  intro e f _ _ less more
  rw [keyOrder_gt_iff.2 more] at less
  exact nomatch less

theorem slot?_congr (t : Table κ α) {k k' : κ} (h : Keyed.key k = Keyed.key k') :
    t.slot? k = t.slot? k' := by
  refine Option.ext fun e => ?_
  rw [slot?_eq_some_iff, slot?_eq_some_iff, h]

/-- What comes after all entries is put at their end. -/
theorem insertEntry_eq_append {k : κ} (v : α) {es : List (κ × α)}
    (last : ∀ e ∈ es, keyOrder e.1 k = .lt) : insertEntry k v es = es ++ [(k, v)] := by
  induction es with
  | nil => rfl
  | cons e es ih =>
    have before : keyOrder k e.1 = .gt := keyOrder_gt_iff.2 (last e (by simp))
    rw [insertEntry, before, List.cons_append, ← ih fun f member => last f (by simp [member])]

theorem entries_ofList {es : List (κ × α)} (ordered : es.Pairwise fun e f => keyOrder e.1 f.1 = .lt) :
    (ofList es).entries = es := by
  -- the table is generalised to one that holds some entries before these
  have general : ∀ (es : List (κ × α)) (t : Table κ α),
      (t.entries ++ es).Pairwise (fun e f => keyOrder e.1 f.1 = .lt) →
      (es.foldl (fun t e => t.insert e.1 e.2) t).entries = t.entries ++ es := by
    intro es
    induction es with
    | nil => exact fun t _ => (List.append_nil _).symm
    | cons e es ih =>
      intro t ordered
      have last : ∀ f ∈ t.entries, keyOrder f.1 e.1 = .lt := fun f member =>
        (List.pairwise_append.1 ordered).2.2 f member e (by simp)
      have put : (t.insert e.1 e.2).entries = t.entries ++ [e] := insertEntry_eq_append e.2 last
      rw [List.append_cons, ← put] at ordered
      rw [List.foldl_cons, ih _ ordered, put, ← List.append_cons]
  exact general es empty ordered

theorem ofList_entries (t : Table κ α) : ofList t.entries = t :=
  eq_of_entries (entries_ofList t.ordered)

theorem forall_value_insert {P : α → Prop} {t : Table κ α} (h : ∀ e ∈ t.entries, P e.2) (k : κ)
    {v : α} (new : P v) : ∀ e ∈ (t.insert k v).entries, P e.2 := by
  intro e member
  have found := find?_of_mem member
  rw [find?_insert] at found
  split at found
  · cases found
    exact new
  · obtain ⟨f, old, _, same⟩ := find?_eq_some_iff.1 found
    exact same ▸ h f old

/-- A table has no values but those that it is made of. -/
theorem forall_value_ofList {P : α → Prop} {es : List (κ × α)} (h : ∀ e ∈ es, P e.2) :
    ∀ e ∈ (ofList es).entries, P e.2 :=
  List.foldlRecOn es _ (motive := fun t : Table κ α => ∀ e ∈ t.entries, P e.2)
    (fun _ none => nomatch none) fun _ kept e member => forall_value_insert kept e.1 (h e member)

theorem not_keyOrder_eq {k k' : κ} (h : ¬Keyed.key k = Keyed.key k') :
    (keyOrder k k' == .eq) = false := by simpa [keyOrder_eq_iff] using h

/-- A key that comes before all entries is that of none of them. -/
theorem find?_eq_none_of_lt {k : κ} {es : List (κ × α)} (less : ∀ e ∈ es, keyOrder k e.1 = .lt) :
    es.find? (fun e => keyOrder k e.1 == .eq) = none := by
  rw [List.find?_eq_none]
  intro e member same
  rw [less e member] at same
  exact absurd same (by decide)

theorem slot?_insert (t : Table κ α) (k k' : κ) (v : α) :
    (t.insert k v).slot? k' =
      if Keyed.key k' = Keyed.key k then some (((t.slot? k).map Prod.fst).getD k, v)
      else t.slot? k' := by
  obtain ⟨es, ordered⟩ := t
  change (insertEntry k v es).find? _ = if _ then some (((es.find? _).map Prod.fst).getD k, v) else
    es.find? _
  induction es with
  | nil => by_cases same : Keyed.key k' = Keyed.key k <;> simp [insertEntry, keyOrder_eq_iff, same]
  | cons f rest ih =>
    obtain ⟨first, later⟩ := List.pairwise_cons.1 ordered
    rw [insertEntry]
    split
    · next less =>
      have new : (f :: rest).find? (fun e => keyOrder k e.1 == .eq) = none :=
        find?_eq_none_of_lt (List.forall_mem_cons.2
          ⟨less, fun e member => keyOrder_lt_trans less (first e member)⟩)
      rw [new]
      by_cases same : Keyed.key k' = Keyed.key k <;>
        simp [List.find?_cons, keyOrder_eq_iff, same]
    · next here =>
      have here := keyOrder_eq_iff.1 here
      by_cases same : Keyed.key k' = Keyed.key f.1
      · simp [keyOrder_eq_iff, same, here]
      · simp [not_keyOrder_eq same, same, here]
    · next more =>
      have apart : ¬Keyed.key k = Keyed.key f.1 := by
        intro same
        rw [keyOrder_eq_iff.2 same] at more
        exact absurd more (by decide)
      by_cases same : Keyed.key k' = Keyed.key f.1
      · have other : ¬Keyed.key k' = Keyed.key k := fun here => apart (here.symm.trans same)
        rw [if_neg other]
        simp [keyOrder_eq_iff, same]
      · have rest := ih later
        simp [not_keyOrder_eq same, not_keyOrder_eq apart, rest]

/-- The table with the entries of another put in: theirs is the value, and the spelling that came
first stays. -/
def extend (t u : Table κ α) : Table κ α := u.entries.foldl (fun t e => t.insert e.1 e.2) t

theorem slot?_extend (t u : Table κ α) (k : κ) :
    (t.extend u).slot? k =
      match u.slot? k with
      | some e => some (((t.slot? k).map Prod.fst).getD e.1, e.2)
      | none => t.slot? k := by
  obtain ⟨es, ordered⟩ := u
  change (es.foldl (fun t e => t.insert e.1 e.2) t).slot? k = match es.find? _ with
    | some e => some (((t.slot? k).map Prod.fst).getD e.1, e.2)
    | none => t.slot? k
  induction es generalizing t with
  | nil => rfl
  | cons f rest ih =>
    obtain ⟨first, later⟩ := List.pairwise_cons.1 ordered
    rw [List.foldl_cons, ih _ later, List.find?_cons]
    by_cases same : Keyed.key k = Keyed.key f.1
    · -- the key is that of the first entry, so none of the others has it
      have none : rest.find? (fun e => keyOrder k e.1 == .eq) = none := by
        rw [List.find?_eq_none]
        intro e member here
        rw [beq_iff_eq, keyOrder_eq_iff, same, ← keyOrder_eq_iff, first e member] at here
        exact nomatch here
      have found : (keyOrder k f.1 == .eq) = true := by simpa [keyOrder_eq_iff] using same
      simp only [none, found, slot?_insert, same, if_true, t.slot?_congr same]
    · simp only [not_keyOrder_eq same, slot?_insert, same, if_false]

theorem find?_extend (t u : Table κ α) (k : κ) :
    (t.extend u).find? k = (u.find? k).or (t.find? k) := by
  simp only [find?_eq_map_slot?, slot?_extend]
  cases u.slot? k <;> rfl

/-- An entry may be put in before or after. -/
theorem extend_insert (t u : Table κ α) (k : κ) (v : α) :
    t.extend (u.insert k v) = (t.extend u).insert k v := by
  refine ext_slot? fun k' => ?_
  rw [slot?_extend, slot?_insert, slot?_insert]
  by_cases same : Keyed.key k' = Keyed.key k
  · rw [if_pos same, if_pos same, slot?_extend, t.slot?_congr same]
    cases u.slot? k with
    | none => rfl
    | some e => cases t.slot? k <;> rfl
  · rw [if_neg same, if_neg same, slot?_extend]

end Keys

section Texts

variable {α : Type} {t u : Table String α} {k : String} {v : α}

theorem key_text_iff {k k' : String} : Keyed.key k = Keyed.key k' ↔ k = k' := by simp [Keyed.key]

theorem mem_entries_iff : (k, v) ∈ t.entries ↔ t.find? k = some v := by
  constructor
  · intro member
    exact find?_of_mem (e := (k, v)) member
  · intro h
    obtain ⟨e, member, same, rfl⟩ := find?_eq_some_iff.1 h
    rw [key_text_iff.1 same]
    exact member

/-- A table under texts is told by its look-ups, for a text has one spelling. -/
theorem ext_find? (h : ∀ k, t.find? k = u.find? k) : t = u := by
  refine ext_slot? fun k => Option.ext fun e => ?_
  rw [slot?_eq_some_iff, slot?_eq_some_iff]
  refine and_congr_left fun _ => ?_
  obtain ⟨k', v⟩ := e
  rw [mem_entries_iff, mem_entries_iff, h]

theorem find?_insert_text (t : Table String α) (k k' : String) (v : α) :
    (t.insert k v).find? k' = if k' = k then some v else t.find? k' := by
  simp only [find?_insert, key_text_iff]

/-- Putting in what is there changes nothing. -/
theorem insert_of_find? (h : t.find? k = some v) : t.insert k v = t := by
  refine ext_find? fun k' => ?_
  rw [find?_insert_text]
  split
  · next same => rw [same, h]
  · rfl

theorem insert_insert (t : Table String α) (k : String) (v w : α) :
    (t.insert k v).insert k w = t.insert k w := by
  refine ext_find? fun k' => ?_
  simp only [find?_insert_text]
  split <;> rfl

end Texts

end CoinLedger.Table
