/-!
Maps from keys to values in the order of their keys. A key is told by a text and a number, so that
two spellings of one key share an entry; the entry keeps the spelling that came first. Main
statements: what a look-up finds after an insertion, and that the entries stay in strict order.
-/

namespace CoinLedger

/-- What a key is told and ordered by. -/
class Keyed (κ : Type) where
  key : κ → String × Int

instance : Keyed String := ⟨fun s => (s, 0)⟩

/-- The order of texts with numbers: by text, code point by code point, then by number. -/
def pairOrder : String × Int → String × Int → Ordering := lexOrd.compare

instance : Std.TransCmp pairOrder :=
  letI : Ord (String × Int) := lexOrd
  inferInstanceAs (Std.TransOrd (String × Int))

instance : Std.LawfulEqCmp pairOrder :=
  letI : Ord (String × Int) := lexOrd
  inferInstanceAs (Std.LawfulEqOrd (String × Int))

variable {κ α : Type} [Keyed κ]

def keyOrder (a b : κ) : Ordering := pairOrder (Keyed.key a) (Keyed.key b)

theorem keyOrder_eq_iff {a b : κ} : keyOrder a b = .eq ↔ Keyed.key a = Keyed.key b := by
  unfold keyOrder
  exact Std.LawfulEqCmp.compare_eq_iff_eq

theorem keyOrder_lt_trans {a b c : κ} (h : keyOrder a b = .lt) (k : keyOrder b c = .lt) :
    keyOrder a c = .lt := by
  unfold keyOrder at *
  exact Std.TransCmp.lt_trans h k

theorem keyOrder_gt_iff {a b : κ} : keyOrder a b = .gt ↔ keyOrder b a = .lt := by
  unfold keyOrder
  exact Std.OrientedCmp.gt_iff_lt

theorem keyOrder_congr_right {a b c : κ} (h : Keyed.key b = Keyed.key c) :
    keyOrder a b = keyOrder a c := by
  unfold keyOrder
  rw [h]

/-- Entries in strict order of their keys. -/
structure Table (κ α : Type) [Keyed κ] where
  entries : List (κ × α)
  ordered : entries.Pairwise fun e f => keyOrder e.1 f.1 = .lt

namespace Table

def empty : Table κ α := ⟨[], .nil⟩

instance : Inhabited (Table κ α) := ⟨empty⟩

def find? (t : Table κ α) (k : κ) : Option α :=
  (t.entries.find? fun e => keyOrder k e.1 == .eq).map Prod.snd

/-- Puts an entry in its place. A key that is there keeps its spelling and gets the new value. -/
def insertEntry (k : κ) (v : α) : List (κ × α) → List (κ × α)
  | [] => [(k, v)]
  | e :: rest =>
    match keyOrder k e.1 with
    | .lt => (k, v) :: e :: rest
    | .eq => (e.1, v) :: rest
    | .gt => e :: insertEntry k v rest

/-- Every key of the new entries is the inserted one or an old one, up to spelling. -/
theorem key_of_mem_insertEntry {k : κ} {v : α} {es : List (κ × α)} {e : κ × α}
    (h : e ∈ insertEntry k v es) :
    Keyed.key e.1 = Keyed.key k ∨ ∃ f ∈ es, Keyed.key e.1 = Keyed.key f.1 := by
  induction es with
  | nil => simp_all [insertEntry]
  | cons f rest ih =>
    rw [insertEntry] at h
    split at h
    · simp only [List.mem_cons] at h
      rcases h with rfl | rfl | h
      · exact .inl rfl
      · exact .inr ⟨e, by simp, rfl⟩
      · exact .inr ⟨e, by simp [h], rfl⟩
    · next hk =>
      simp only [List.mem_cons] at h
      rcases h with rfl | h
      · exact .inl (keyOrder_eq_iff.1 hk).symm
      · exact .inr ⟨e, by simp [h], rfl⟩
    · simp only [List.mem_cons] at h
      rcases h with rfl | h
      · exact .inr ⟨e, by simp, rfl⟩
      · rcases ih h with h | ⟨g, hg, h⟩
        · exact .inl h
        · exact .inr ⟨g, by simp [hg], h⟩

theorem ordered_insertEntry {k : κ} {v : α} {es : List (κ × α)}
    (h : es.Pairwise fun e f => keyOrder e.1 f.1 = .lt) :
    (insertEntry k v es).Pairwise fun e f => keyOrder e.1 f.1 = .lt := by
  induction es with
  | nil => simp [insertEntry]
  | cons f rest ih =>
    have hf := List.pairwise_cons.1 h
    rw [insertEntry]
    split
    · next hk =>
      refine List.pairwise_cons.2 ⟨fun e he => ?_, h⟩
      rcases List.mem_cons.1 he with rfl | he
      · exact hk
      · exact keyOrder_lt_trans hk (hf.1 e he)
    · exact List.pairwise_cons.2 ⟨fun e he => hf.1 e he, hf.2⟩
    · next hk =>
      refine List.pairwise_cons.2 ⟨fun e he => ?_, ih hf.2⟩
      rcases key_of_mem_insertEntry he with he | ⟨g, hg, he⟩
      · rw [keyOrder_congr_right he]
        exact keyOrder_gt_iff.1 hk
      · rw [keyOrder_congr_right he]
        exact hf.1 g hg

/-- The table with a key's value replaced, or with a new entry. -/
def insert (t : Table κ α) (k : κ) (v : α) : Table κ α :=
  ⟨insertEntry k v t.entries, ordered_insertEntry t.ordered⟩

/-- The table of some entries, a later one replacing an earlier one's value. -/
def ofList (entries : List (κ × α)) : Table κ α :=
  entries.foldl (fun t e => t.insert e.1 e.2) empty

def keys (t : Table κ α) : List κ := t.entries.map Prod.fst

@[simp] theorem find?_empty (k : κ) : (empty : Table κ α).find? k = none := rfl

/-- A look-up goes by the key, not by its spelling. -/
theorem find?_congr (t : Table κ α) {k k' : κ} (h : Keyed.key k = Keyed.key k') :
    t.find? k = t.find? k' := by
  have : (fun e : κ × α => keyOrder k e.1 == .eq) = fun e => keyOrder k' e.1 == .eq := by
    funext e
    unfold keyOrder
    rw [h]
  rw [find?, find?, this]

theorem find?_insertEntry (k k' : κ) (v : α) (es : List (κ × α)) :
    ((insertEntry k v es).find? fun e => keyOrder k' e.1 == .eq).map Prod.snd =
      if Keyed.key k' = Keyed.key k then some v
      else (es.find? fun e => keyOrder k' e.1 == .eq).map Prod.snd := by
  induction es with
  | nil =>
    by_cases h : Keyed.key k' = Keyed.key k
    · simp [insertEntry, keyOrder_eq_iff, h]
    · simp [insertEntry, keyOrder_eq_iff, h]
  | cons f rest ih =>
    rw [insertEntry]
    split
    · by_cases h : Keyed.key k' = Keyed.key k <;> simp [List.find?_cons, keyOrder_eq_iff, h]
    · next hk =>
      have hk := keyOrder_eq_iff.1 hk
      by_cases h : Keyed.key k' = Keyed.key k
      · simp [keyOrder_eq_iff.2 (h.trans hk), h]
      · have hf : ¬ Keyed.key k' = Keyed.key f.1 := fun e => h (e.trans hk.symm)
        have hf : (keyOrder k' f.1 == .eq) = false := by simpa [keyOrder_eq_iff] using hf
        simp [hf, h]
    · next hk =>
      by_cases hf : Keyed.key k' = Keyed.key f.1
      · have h : ¬ Keyed.key k' = Keyed.key k := by
          intro h
          have : keyOrder k f.1 = .eq := keyOrder_eq_iff.2 (h.symm.trans hf)
          rw [hk] at this
          exact nomatch this
        simp [keyOrder_eq_iff.2 hf, h]
      · have hf : (keyOrder k' f.1 == .eq) = false := by simpa [keyOrder_eq_iff] using hf
        rw [List.find?_cons_of_neg (by simp [hf]), ih, List.find?_cons_of_neg (by simp [hf])]

theorem find?_insert (t : Table κ α) (k k' : κ) (v : α) :
    (t.insert k v).find? k' = if Keyed.key k' = Keyed.key k then some v else t.find? k' :=
  find?_insertEntry k k' v t.entries

@[simp] theorem find?_insert_self (t : Table κ α) (k : κ) (v : α) :
    (t.insert k v).find? k = some v := by
  rw [find?_insert, if_pos rfl]

end Table

end CoinLedger
