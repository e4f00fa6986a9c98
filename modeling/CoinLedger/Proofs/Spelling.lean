import CoinLedger.Proofs.Base64Url
import CoinLedger.Proofs.Text.Decimal
import CoinLedger.Transaction.Basic

/-!
One value and its spellings. Bytes have as many spellings as they have equals signs to leave out, and
each reader takes all of them. Main statement: what is read is told by its bytes alone, and two texts
are read alike exactly when they differ in nothing but the equals signs at their ends.
-/

namespace CoinLedger

namespace Base64Url

/-- So many equals signs. -/
def pads (count : Nat) : String := String.ofList (List.replicate count '=')

@[simp] theorem utf8_pads (count : Nat) : Text.utf8 (pads count) = List.replicate count padByte := by
  rw [pads, Text.utf8_ofList]
  induction count with
  | zero => rfl
  | succ count ih =>
    rw [List.replicate_succ, List.flatMap_cons, ih, List.replicate_succ]
    rfl

/-- The text is the padded one of the bytes, some or none of its equals signs left out. -/
def Denotes (s : String) (bytes : List UInt8) : Prop := ∃ missing, s ++ pads missing = text bytes

/-- The texts agree up to equals signs at their ends. -/
def SameButPads (s t : String) : Prop := ∃ m n, s ++ pads m = t ++ pads n

/-- Where the symbols end, and only there, equals signs may have been left out. -/
theorem eq_symbols_append_of_append {symbols row : List UInt8} {missing count : Nat}
    (unpadded : padByte ∉ symbols)
    (h : row ++ List.replicate missing padByte = symbols ++ List.replicate count padByte) :
    ∃ kept ≤ count, row = symbols ++ List.replicate kept padByte := by
  rcases List.append_eq_append_iff.1 h with ⟨more, rfl, same⟩ | ⟨more, rfl, same⟩
  · have none : more = [] := by
      apply List.eq_nil_iff_forall_not_mem.2
      intro byte member
      have pad : byte ∈ List.replicate missing padByte := by
        rw [same]
        exact List.mem_append_left _ member
      rw [List.eq_of_mem_replicate pad] at member
      exact unpadded (List.mem_append_right _ member)
    exact ⟨0, Nat.zero_le _, by simp [none]⟩
  · obtain ⟨length, pads, _⟩ := List.append_eq_replicate_iff.1 same.symm
    exact ⟨more.length, by omega, by rw [← pads]⟩

theorem denotes_iff {s : String} {bytes : List UInt8} :
    Denotes s bytes ↔ decode (Text.utf8 s) = .ok bytes := by
  rw [decode_eq_ok_iff]
  constructor
  · rintro ⟨missing, h⟩
    have row := congrArg Text.utf8 h
    rw [Text.utf8_append, utf8_pads, utf8_text, encode] at row
    exact eq_symbols_append_of_append (padByte_notMem_symbols bytes) row
  · rintro ⟨kept, few, row⟩
    refine ⟨padding bytes.length - kept, Text.utf8_injective ?_⟩
    rw [Text.utf8_append, row, utf8_pads, utf8_text, encode, List.append_assoc,
      List.replicate_append_replicate, Nat.add_sub_cancel' few]

theorem Denotes.unique {s : String} {bytes other : List UInt8} (h : Denotes s bytes)
    (k : Denotes s other) : bytes = other :=
  Except.ok.inj ((denotes_iff.1 h).symm.trans (denotes_iff.1 k))

theorem Denotes.ne_empty {s : String} {bytes : List UInt8} (h : Denotes s bytes) (some : bytes ≠ []) :
    s ≠ "" := by
  rintro rfl
  exact some (Except.ok.inj (denotes_iff.1 h)).symm

theorem denotes_text (bytes : List UInt8) : Denotes (text bytes) bytes := ⟨0, String.append_empty⟩

/-- Without any padding the symbols still tell the bytes. -/
theorem symbols_injective {bytes other : List UInt8}
    (h : (sextets bytes).map symbol = (sextets other).map symbol) : bytes = other := by
  have own : decode ((sextets bytes).map symbol ++ List.replicate 0 padByte) = .ok bytes :=
    decode_symbols_append (Nat.zero_le _)
  rw [h, decode_symbols_append (Nat.zero_le _)] at own
  exact (Except.ok.inj own).symm

/-- Spellings of different bytes differ in a symbol. -/
theorem Denotes.sameButPads_iff {s t : String} {bytes other : List UInt8} (hs : Denotes s bytes)
    (ht : Denotes t other) : SameButPads s t ↔ bytes = other := by
  constructor
  · rintro ⟨m, n, h⟩
    obtain ⟨_, _, left⟩ := decode_eq_ok_iff.1 (denotes_iff.1 hs)
    obtain ⟨_, _, right⟩ := decode_eq_ok_iff.1 (denotes_iff.1 ht)
    have rows := congrArg Text.utf8 h
    rw [Text.utf8_append, Text.utf8_append, utf8_pads, utf8_pads, left, right, List.append_assoc,
      List.append_assoc, List.replicate_append_replicate, List.replicate_append_replicate] at rows
    obtain ⟨more, _, symbols⟩ := eq_symbols_append_of_append (padByte_notMem_symbols other) rows
    -- an equals sign behind the symbols of the one would be a symbol of the other
    have none : more = 0 := by
      apply Classical.byContradiction
      intro some
      apply padByte_notMem_symbols bytes
      rw [symbols]
      exact List.mem_append_right _ (List.mem_replicate.2 ⟨some, rfl⟩)
    rw [none, List.replicate_zero, List.append_nil] at symbols
    exact symbols_injective symbols
  · rintro rfl
    obtain ⟨m, hs⟩ := hs
    obtain ⟨n, ht⟩ := ht
    exact ⟨m, n, hs.trans ht.symm⟩

/-- Bytes that come in threes have one spelling. -/
theorem Denotes.eq_text {s : String} {bytes : List UInt8} (h : Denotes s bytes)
    (threes : bytes.length % 3 = 0) : s = text bytes := by
  have none : padding bytes.length = 0 := by
    rw [padding, threes]
  obtain ⟨kept, few, row⟩ := decode_eq_ok_iff.1 (denotes_iff.1 h)
  rw [none] at few
  apply Text.utf8_injective
  rw [utf8_text, row, encode, none, Nat.le_zero.1 few]

/-- A reader that takes every spelling of the rows of one size and no other text, and what it reads is
written in full. -/
structure ReadsRows {α : Type} (read : String → Except Malformed α) (write : α → String)
    (size : Nat) : Prop where
  accepts : ∀ s, (∃ v, read s = .ok v) ↔ ∃ bytes, bytes.length = size ∧ Denotes s bytes
  rewrites : ∀ s v bytes, read s = .ok v → Denotes s bytes → write v = text bytes

/-- Such is a reader of values that are rows of that size. -/
theorem readsRows_of_iff {α : Type} {read : String → Except Malformed α} {size : Nat}
    (row : α → List UInt8) (rows : ∀ bytes, bytes.length = size ↔ ∃ v, row v = bytes)
    (reads : ∀ s v, read s = .ok v ↔ Denotes s (row v)) :
    ReadsRows read (fun v => text (row v)) size where
  accepts s := by
    constructor
    · rintro ⟨v, taken⟩
      exact ⟨row v, (rows _).2 ⟨v, rfl⟩, (reads s v).1 taken⟩
    · rintro ⟨bytes, sized, denoted⟩
      obtain ⟨v, rfl⟩ := (rows bytes).1 sized
      exact ⟨v, (reads s v).2 denoted⟩
  rewrites s v bytes taken denoted := by
    rw [((reads s v).1 taken).unique denoted]

end Base64Url

open Base64Url (Denotes SameButPads ReadsRows denotes_iff denotes_text readsRows_of_iff)

namespace Hash

theorem denotes (h : Hash) : Denotes h.spelling h.bytes := denotes_iff.2 h.decodes

/-- A hash is read from its own spelling and from no other. -/
theorem ofText_eq_ok_iff {s : String} {h : Hash} : ofText s = .ok h ↔ h.spelling = s := by
  constructor
  · intro read
    unfold ofText at read
    split at read
    · exact nomatch read
    · split at read
      · exact nomatch read
      · cases read
        rfl
  · rintro rfl
    obtain ⟨spelling, bytes, decodes, spelled⟩ := h
    unfold ofText
    rw [dif_neg spelled]
    split
    · next fault failed =>
      rw [decodes] at failed
      exact nomatch failed
    · next found other =>
      rw [decodes] at other
      cases other
      rfl

theorem ofText_accepts_iff {s : String} :
    (∃ h, ofText s = .ok h) ↔ ∃ bytes, bytes ≠ [] ∧ Denotes s bytes := by
  constructor
  · rintro ⟨h, read⟩
    cases ofText_eq_ok_iff.1 read
    exact ⟨h.bytes, h.bytes_ne_nil, h.denotes⟩
  · rintro ⟨bytes, some, denoted⟩
    exact ⟨⟨s, bytes, denotes_iff.1 denoted, denoted.ne_empty some⟩, ofText_eq_ok_iff.2 rfl⟩

/-- The order of hashes does not see their spellings. -/
theorem keyOrder_eq_iff_bytes {h k : Hash} : keyOrder h k = .eq ↔ h.bytes = k.bytes := by
  rw [keyOrder_eq_iff, key_eq_iff]

end Hash

/-- A signature is read from every spelling of its bytes. -/
theorem Signature.ofText_eq_ok_iff {s : String} {signature : Signature} :
    ofText s = .ok signature ↔ Denotes s signature.bytes := by
  rw [denotes_iff]
  constructor
  · intro read
    unfold ofText at read
    split at read
    · exact nomatch read
    next bytes decoded =>
    split at read
    · cases read
      exact decoded
    · exact nomatch read
  · intro decoded
    simp [ofText, decoded, signature.size]

theorem Signature.ofText_text (signature : Signature) : ofText signature.text = .ok signature :=
  ofText_eq_ok_iff.2 (denotes_text signature.bytes)

theorem KeyPair.ofText_eq_ok_iff {s : String} {keys : KeyPair} :
    ofText s = .ok keys ↔ Denotes s keys.secret := by
  rw [denotes_iff]
  constructor
  · intro read
    unfold ofText at read
    split at read
    · exact nomatch read
    next bytes decoded =>
    split at read
    · cases read
      exact decoded
    · exact nomatch read
  · intro decoded
    simp [ofText, decoded, keys.size]

/-- A public key is read from every spelling of its bytes, if these stand for a point of the curve. -/
theorem PublicKey.ofText_eq_ok_iff {s : String} {key : PublicKey} :
    ofText s = .ok key ↔ Denotes s key.bytes ∧ key.isPoint = true := by
  rw [denotes_iff]
  constructor
  · intro read
    unfold ofText at read
    split at read
    · exact nomatch read
    next bytes decoded =>
    split at read
    · split at read
      · next point =>
        cases read
        exact ⟨decoded, point⟩
      · exact nomatch read
    · exact nomatch read
  · rintro ⟨decoded, point⟩
    simp [ofText, decoded, key.size, point]

theorem PublicKey.ofText_text {key : PublicKey} (point : key.isPoint = true) :
    ofText key.text = .ok key := ofText_eq_ok_iff.2 ⟨denotes_text key.bytes, point⟩

theorem PublicKey.isPoint_of_ofText {s : String} {key : PublicKey} (h : ofText s = .ok key) :
    key.isPoint = true := (ofText_eq_ok_iff.1 h).2

theorem Signature.readsRows : ReadsRows Signature.ofText Signature.text 64 :=
  readsRows_of_iff Signature.bytes
    (fun bytes => ⟨fun size => ⟨⟨bytes, size⟩, rfl⟩, fun ⟨v, same⟩ => same ▸ v.size⟩)
    fun _ _ => ofText_eq_ok_iff

theorem KeyPair.readsRows : ReadsRows KeyPair.ofText KeyPair.secretText 32 :=
  readsRows_of_iff KeyPair.secret
    (fun bytes => ⟨fun size => ⟨⟨bytes, size⟩, rfl⟩, fun ⟨v, same⟩ => same ▸ v.size⟩)
    fun _ _ => ofText_eq_ok_iff

/-- The coinbase hash has 48 bytes, so that 64 zeros are its one spelling. -/
theorem OutPoint.same_coinbase_iff {o : OutPoint} : o.Same coinbase ↔ o.isCoinbase = true := by
  have zeros : o.hash.bytes = coinbase.hash.bytes ↔ o.hash.spelling = coinbaseSpelling := by
    constructor
    · intro same
      have threes : coinbase.hash.bytes.length % 3 = 0 := rfl
      have own : o.hash.spelling = Base64Url.text o.hash.bytes :=
        o.hash.denotes.eq_text (by rw [same, threes])
      have zeros : coinbaseSpelling = Base64Url.text coinbase.hash.bytes :=
        coinbase.hash.denotes.eq_text threes
      rw [own, zeros, same]
    · intro spelled
      have one : o.hash = coinbase.hash := Hash.eq_of_spelling spelled
      rw [one]
  rw [Same, zeros, isCoinbase, Bool.and_eq_true, beq_iff_eq, beq_iff_eq]
  exact And.comm

/-- A text is a hash exactly if it is a spelling of some bytes, not of none. The hash keeps the text and
is told by the bytes: its padded text is decoded to them, hashes are the same, and in the same place of
the order, when they have the same bytes, and texts denote the same bytes when they differ in equals signs
at their ends only. So an outpoint names the coinbase exactly if it is spelled like it. Signatures and
secrets are read from the spellings of rows of their size, public keys from some of them, and all are
written in full. -/
theorem Hash.spellings_exact :
    (∀ s, (∃ h, ofText s = .ok h) ↔ ∃ bytes, bytes ≠ [] ∧ Denotes s bytes) ∧
    (∀ s h bytes, ofText s = .ok h → Denotes s bytes →
      h.spelling = s ∧ h.bytes = bytes ∧
        Base64Url.decode (Text.utf8 h.canonicalText) = .ok bytes) ∧
    (∀ s t h k, ofText s = .ok h → ofText t = .ok k →
      (h.canonicalText = k.canonicalText ↔ h.bytes = k.bytes) ∧
      (keyOrder h k = .eq ↔ h.bytes = k.bytes) ∧
      (h.bytes = k.bytes ↔ SameButPads s t)) ∧
    (∀ o : OutPoint, o.Same .coinbase ↔ o.isCoinbase = true) ∧
    ReadsRows Signature.ofText Signature.text 64 ∧
    ReadsRows KeyPair.ofText KeyPair.secretText 32 ∧
    ∀ s key, PublicKey.ofText s = .ok key →
      ∃ bytes, bytes.length = 32 ∧ Denotes s bytes ∧ key.text = Base64Url.text bytes := by
  refine ⟨fun s => ofText_accepts_iff, ?_, ?_, fun o => OutPoint.same_coinbase_iff,
    Signature.readsRows, KeyPair.readsRows, ?_⟩
  · intro s h bytes read denoted
    cases ofText_eq_ok_iff.1 read
    have same := h.denotes.unique denoted
    refine ⟨rfl, same, ?_⟩
    rw [canonicalText, Base64Url.utf8_text, Base64Url.decode_encode, same]
  · intro s t h k left right
    cases ofText_eq_ok_iff.1 left
    cases ofText_eq_ok_iff.1 right
    exact ⟨canonicalText_eq_iff, keyOrder_eq_iff_bytes, (h.denotes.sameButPads_iff k.denotes).symm⟩
  · intro s key read
    exact ⟨key.bytes, key.size, (PublicKey.ofText_eq_ok_iff.1 read).1, rfl⟩

end CoinLedger
