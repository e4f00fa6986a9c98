import CoinLedger.Base64Url.Basic

/-!
Main statement: the padded text of some bytes, or what is left of it without some of its equals
signs, decodes to those bytes, so different bytes have different texts.
-/

namespace CoinLedger.Base64Url

/-- A property of bytes holds when it holds of the 256 numbers. -/
theorem forall_byte {P : UInt8 → Prop} (h : ∀ n : Nat, n < 256 → P (.ofNat n)) : ∀ b, P b := by
  intro b
  have := h b.toNat b.toNat_lt
  rwa [UInt8.ofNat_toNat] at this

theorem value?_symbol : ∀ v < 64, value? (symbol v) = some v := by decide

theorem symbol_ne_padByte : ∀ v < 64, symbol v ≠ padByte := by decide

set_option maxRecDepth 4096 in
theorem symbol_of_value? : ∀ b : UInt8, ∀ v, value? b = some v → symbol v = b ∧ v < 64 := by
  have key : ∀ n : Nat, n < 256 →
      ((value? (.ofNat n)).all fun v => symbol v = .ofNat n ∧ v < 64) = true := by decide
  intro b
  refine forall_byte (P := fun b => ∀ v, value? b = some v → symbol v = b ∧ v < 64) ?_ b
  intro n hn v hv
  have := key n hn
  rw [hv] at this
  simpa using this

theorem symbol_lt : ∀ v < 64, (symbol v).toNat < 128 := by decide

theorem lt_of_mem_sextets {bytes : List UInt8} {v : Nat} (h : v ∈ sextets bytes) : v < 64 := by
  fun_induction sextets bytes with
  | case1 a b c rest ih =>
    have := a.toNat_lt
    have := b.toNat_lt
    have := c.toNat_lt
    simp only [List.mem_cons] at h
    rcases h with h | h | h | h | h
    · omega
    · omega
    · omega
    · omega
    · exact ih h
  | case2 a b =>
    have := a.toNat_lt
    have := b.toNat_lt
    simp only [List.mem_cons, List.not_mem_nil, or_false] at h
    omega
  | case3 a =>
    have := a.toNat_lt
    simp only [List.mem_cons, List.not_mem_nil, or_false] at h
    omega
  | case4 => exact nomatch h

private theorem ofNat_eq {n : Nat} {b : UInt8} (h : n = b.toNat) : UInt8.ofNat n = b := by
  rw [h, UInt8.ofNat_toNat]

@[simp] theorem octets_sextets (bytes : List UInt8) : octets (sextets bytes) = bytes := by
  fun_induction sextets bytes with
  | case1 a b c rest ih =>
    have := a.toNat_lt
    have := b.toNat_lt
    have := c.toNat_lt
    rw [octets, ih, ofNat_eq (b := a) (by omega), ofNat_eq (b := b) (by omega),
      ofNat_eq (b := c) (by omega)]
  | case2 a b =>
    have := a.toNat_lt
    have := b.toNat_lt
    rw [octets, ofNat_eq (b := a) (by omega), ofNat_eq (b := b) (by omega)]
  | case3 a =>
    have := a.toNat_lt
    rw [octets, ofNat_eq (b := a) (by omega)]
  | case4 => rfl

@[simp] theorem spareBits_sextets (bytes : List UInt8) : spareBits (sextets bytes) = 0 := by
  fun_induction sextets bytes with
  | case1 a b c rest ih => simpa [spareBits] using ih
  | case2 a b => simp only [spareBits]; omega
  | case3 a => simp only [spareBits]; omega
  | case4 => rfl

/-- Symbols and padding together fill groups of four. -/
theorem length_sextets_add_padding (bytes : List UInt8) :
    (sextets bytes).length + padding bytes.length = 4 * ((bytes.length + 2) / 3) := by
  fun_induction sextets bytes with
  | case1 a b c rest ih =>
    have hpad : padding (a :: b :: c :: rest).length = padding rest.length := by
      simp only [padding, List.length_cons]; omega
    rw [hpad]
    simp only [List.length_cons] at *
    omega
  | case2 a b => simp [padding]
  | case3 a => simp [padding]
  | case4 => rfl

theorem padding_lt (size : Nat) : padding size < 3 := Nat.mod_lt _ (by decide)

@[simp] theorem length_encode (bytes : List UInt8) :
    (encode bytes).length = 4 * ((bytes.length + 2) / 3) := by
  simp [encode, length_sextets_add_padding]

/-- Symbols are read one by one, wherever padding may stand. -/
theorem scan_symbols (tail offset : Nat) (values : List Nat) (rest : List UInt8)
    (h : ∀ v ∈ values, v < 64) :
    scan tail offset none (values.map symbol ++ rest) =
      (scan tail (offset + values.length) none rest).map (values ++ ·) := by
  induction values generalizing offset with
  | nil => cases hs : scan tail offset none rest <;> simp [Except.map, hs]
  | cons v values ih =>
    have hv := h v (by simp)
    have ih := ih (offset + 1) fun w hw => h w (by simp [hw])
    rw [List.map_cons, List.cons_append, scan, if_neg fun hc => symbol_ne_padByte v hv hc.1,
      value?_symbol v hv]
    simp only [ih, List.length_cons, Nat.add_assoc, Nat.add_comm 1]
    cases scan tail (offset + (values.length + 1)) none rest <;> rfl

/-- Equals signs in the last two places of a group are accepted, be they all or some of them. -/
theorem scan_pads {tail offset kept : Nat}
    (few : kept ≠ 0 → tail ≤ offset ∧ 2 ≤ offset % 4 ∧ offset % 4 + kept ≤ 4) :
    scan tail offset none (List.replicate kept padByte) = .ok [] := by
  match kept with
  | 0 => rfl
  | 1 =>
    obtain ⟨near, place, _⟩ := few (by decide)
    rw [List.replicate_succ, scan, if_pos ⟨rfl, near⟩, if_neg (by omega)]
    rfl
  | 2 =>
    obtain ⟨near, place, room⟩ := few (by decide)
    rw [List.replicate_succ, scan, if_pos ⟨rfl, near⟩, if_neg (by omega), List.replicate_succ,
      scan, if_pos ⟨rfl, by omega⟩, if_neg (by omega)]
    rfl
  | _ + 3 =>
    have := few (by omega)
    omega

/-- Of the padding, any part may be missing. -/
theorem decode_symbols_append {bytes : List UInt8} {kept : Nat} (few : kept ≤ padding bytes.length) :
    decode ((sextets bytes).map symbol ++ List.replicate kept padByte) = .ok bytes := by
  have hsum := length_sextets_add_padding bytes
  have hpad := padding_lt bytes.length
  generalize ht : (sextets bytes).map symbol ++ List.replicate kept padByte = text
  have hlen : text.length = (sextets bytes).length + kept := by simp [← ht]
  have hscan : scan (tailOffset text.length) 0 none text = .ok (sextets bytes) := by
    rw [hlen, ← ht, scan_symbols _ _ _ _ fun v => lt_of_mem_sextets, scan_pads]
    · simp [Except.map]
    · intro some
      unfold tailOffset
      omega
  unfold decode
  rw [if_neg (by omega), hscan]
  simp

@[simp] theorem decode_encode (bytes : List UInt8) : decode (encode bytes) = .ok bytes :=
  decode_symbols_append (Nat.le_refl _)

/-- In the first two places of a group only a symbol is accepted. -/
theorem scan_symbol_of_ok {tail offset : Nat} {byte : UInt8} {rest : List UInt8} {values : List Nat}
    (hplace : offset % 4 < 2) (h : scan tail offset none (byte :: rest) = .ok values) :
    ∃ v vs, values = v :: vs ∧ scan tail (offset + 1) none rest = .ok vs := by
  rw [scan, if_pos hplace] at h
  split at h
  · exact nomatch h
  · cases hv : value? byte with
    | none => simp only [hv] at h; exact nomatch h
    | some v =>
      simp only [hv] at h
      cases hs : scan tail (offset + 1) none rest with
      | error fault => rw [hs] at h; exact nomatch h
      | ok vs =>
        rw [hs] at h
        exact ⟨v, vs, (Except.ok.inj h).symm, rfl⟩

theorem decode_ne_nil {text bytes : List UInt8} (h : decode text = .ok bytes) (ht : text ≠ []) :
    bytes ≠ [] := by
  unfold decode at h
  split at h
  · exact nomatch h
  · next hlen =>
    match text, ht with
    | [a], _ => simp at hlen
    | a :: b :: rest, _ =>
      split at h
      · exact nomatch h
      · next values hs =>
        obtain ⟨v, vs, rfl, hrest⟩ := scan_symbol_of_ok (by decide) hs
        obtain ⟨w, ws, rfl, -⟩ := scan_symbol_of_ok (by decide) hrest
        split at h
        · exact nomatch h
        · cases Except.ok.inj h
          match ws with
          | [] => simp [octets]
          | [_] => simp [octets]
          | _ :: _ :: _ => simp [octets]

theorem encode_injective {bytes other : List UInt8} (h : encode bytes = encode other) :
    bytes = other := by
  have := decode_encode bytes
  rw [h, decode_encode] at this
  exact (Except.ok.inj this).symm

theorem encode_ne_nil {bytes : List UInt8} (h : bytes ≠ []) : encode bytes ≠ [] := by
  have := List.length_pos_iff.2 h
  have := length_encode bytes
  exact List.ne_nil_of_length_pos (by omega)

/-- A padded text is ASCII. -/
theorem lt_of_mem_encode {bytes : List UInt8} {byte : UInt8} (h : byte ∈ encode bytes) :
    byte.toNat < 128 := by
  rcases List.mem_append.1 h with h | h
  · obtain ⟨v, hv, rfl⟩ := List.mem_map.1 h
    exact symbol_lt v (lt_of_mem_sextets hv)
  · rw [(List.mem_replicate.1 h).2]
    decide

end CoinLedger.Base64Url
