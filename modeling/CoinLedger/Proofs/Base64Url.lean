import CoinLedger.Base64Url.Lemmas

/-!
Which texts are read. Main statement: a text decodes to some bytes exactly when it is their symbols
with all, some or none of the equals signs that complete them.
-/

namespace CoinLedger.Base64Url

theorem padByte_notMem_symbols (bytes : List UInt8) : padByte ∉ (sextets bytes).map symbol := by
  intro member
  obtain ⟨v, small, same⟩ := List.mem_map.1 member
  exact symbol_ne_padByte v (lt_of_mem_sextets small) same

theorem toNat_ofNat {n : Nat} (h : n < 256) : (UInt8.ofNat n).toNat = n :=
  UInt8.toNat_ofNat_of_lt' h

/-- Values that leave no bit over are told by their bytes. One value alone would make no byte. -/
theorem sextets_octets {values : List Nat} (small : ∀ v ∈ values, v < 64)
    (spare : spareBits values = 0) (whole : values.length % 4 ≠ 1) :
    sextets (octets values) = values := by
  fun_induction octets values with
  | case1 p q r s rest ih =>
    simp only [List.forall_mem_cons] at small
    obtain ⟨hp, hq, hr, hs, small⟩ := small
    simp only [List.length_cons] at whole
    rw [sextets, ih small spare (by omega), toNat_ofNat (by omega), toNat_ofNat (by omega),
      toNat_ofNat (by omega)]
    simp only [List.cons.injEq, and_true]
    omega
  | case2 p q r =>
    simp only [List.forall_mem_cons] at small
    obtain ⟨hp, hq, hr, _⟩ := small
    simp only [spareBits] at spare
    rw [sextets, toNat_ofNat (by omega), toNat_ofNat (by omega)]
    simp only [List.cons.injEq, and_true]
    omega
  | case3 p q =>
    simp only [List.forall_mem_cons] at small
    obtain ⟨hp, hq, _⟩ := small
    simp only [spareBits] at spare
    rw [sextets, toNat_ofNat (by omega)]
    simp only [List.cons.injEq, and_true]
    omega
  | case4 values none three two =>
    rcases values with _ | ⟨p, _ | ⟨q, _ | ⟨r, _ | ⟨s, rest⟩⟩⟩⟩
    · rfl
    · exact absurd rfl whole
    · exact absurd rfl (two p q)
    · exact absurd rfl (three p q r)
    · exact absurd rfl (none p q r s rest)

/-- So many equals signs may stand from `offset` on: they are among the last two of a group. -/
def PadsFit (offset pads : Nat) : Prop := pads ≠ 0 → 2 ≤ offset % 4 ∧ offset % 4 + pads ≤ 4

theorem PadsFit.succ {offset pads : Nat} (place : ¬offset % 4 < 2) (h : PadsFit (offset + 1) pads) :
    PadsFit offset (pads + 1) := by
  intro _
  unfold PadsFit at h
  omega

/-- After one equals sign nothing else is read. -/
theorem pads_of_scan {tail offset first : Nat} {text : List UInt8} {values : List Nat}
    (h : scan tail offset (some first) text = .ok values) :
    values = [] ∧ ∃ pads, text = List.replicate pads padByte ∧ PadsFit offset pads := by
  induction text generalizing offset first with
  | nil =>
    cases h
    exact ⟨rfl, 0, rfl, fun some => absurd rfl some⟩
  | cons byte rest ih =>
    rw [scan] at h
    split at h
    · next pad =>
      split at h
      · cases h
      · next place =>
        obtain ⟨none, pads, rfl, fit⟩ := ih h
        exact ⟨none, pads + 1, by rw [pad.1, List.replicate_succ], fit.succ place⟩
    · cases h

/-- What is read is symbols and then, in their place, equals signs. -/
theorem symbols_of_scan {tail offset : Nat} {text : List UInt8} {values : List Nat}
    (h : scan tail offset none text = .ok values) :
    (∀ v ∈ values, v < 64) ∧ ∃ pads,
      text = values.map symbol ++ List.replicate pads padByte ∧
        PadsFit (offset + values.length) pads := by
  induction text generalizing offset values with
  | nil =>
    cases h
    exact ⟨nofun, 0, rfl, fun some => absurd rfl some⟩
  | cons byte rest ih =>
    rw [scan] at h
    split at h
    · next pad =>
      split at h
      · cases h
      · next place =>
        obtain ⟨rfl, pads, rfl, fit⟩ := pads_of_scan h
        exact ⟨nofun, pads + 1, by rw [pad.1, List.replicate_succ]; rfl, fit.succ place⟩
    · cases known : value? byte with
      | none =>
        simp only [known] at h
        cases h
      | some value =>
        simp only [known] at h
        cases later : scan tail (offset + 1) none rest with
        | error fault =>
          rw [later] at h
          cases h
        | ok others =>
          rw [later] at h
          cases h
          obtain ⟨small, pads, rfl, fit⟩ := ih later
          obtain ⟨same, first⟩ := symbol_of_value? byte value known
          refine ⟨List.forall_mem_cons.2 ⟨first, small⟩, pads, ?_, ?_⟩
          · rw [List.map_cons, same, List.cons_append]
          · rwa [List.length_cons, Nat.add_comm others.length, ← Nat.add_assoc]

/-- The texts that are read as some bytes: their symbols and a part of their padding. -/
theorem decode_eq_ok_iff {text bytes : List UInt8} :
    decode text = .ok bytes ↔ ∃ kept ≤ padding bytes.length,
      text = (sextets bytes).map symbol ++ List.replicate kept padByte := by
  constructor
  · intro h
    unfold decode at h
    split at h
    · exact nomatch h
    next short =>
    split at h
    · exact nomatch h
    next values read =>
    split at h
    · exact nomatch h
    next spare =>
    cases h
    obtain ⟨small, pads, rfl, fit⟩ := symbols_of_scan read
    rw [Nat.zero_add] at fit
    simp only [List.length_append, List.length_map, List.length_replicate] at short
    have whole : values.length % 4 ≠ 1 := by
      unfold PadsFit at fit
      omega
    have back := sextets_octets small (Decidable.not_not.1 spare) whole
    have groups := length_sextets_add_padding (octets values)
    have few := padding_lt (octets values).length
    rw [back] at groups ⊢
    refine ⟨pads, ?_, rfl⟩
    unfold PadsFit at fit
    omega
  · rintro ⟨kept, few, rfl⟩
    exact decode_symbols_append few

end CoinLedger.Base64Url
