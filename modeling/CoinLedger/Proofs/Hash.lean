import CoinLedger.Hash
import CoinLedger.Proofs.Base64Url

/-!
How hashes of a known size are spelled. Main statement: where the size leaves two bytes over, the
spelling is a row of symbols of known length, none of them an equals sign, and then at most one
equals sign; so its end can be seen in a longer text.
-/

namespace CoinLedger

namespace Hash

/-- So many bytes, spelled with some of their padding or none. -/
structure Sized (size : Nat) (h : Hash) : Prop where
  length : h.bytes.length = size
  spelling : ∃ pads ≤ Base64Url.padding size, Text.utf8 h.spelling =
    (Base64Url.sextets h.bytes).map Base64Url.symbol ++ List.replicate pads Base64Url.padByte

/-- So many bytes, spelled in full. -/
structure Padded (size : Nat) (h : Hash) : Prop where
  length : h.bytes.length = size
  spelling : h.spelling = h.canonicalText

/-- A spelling in two parts, so many symbols and what pads them. -/
structure Spells (count : Nat) (h : Hash) (symbols pads : List UInt8) : Prop where
  length : symbols.length = count
  unpadded : Base64Url.padByte ∉ symbols
  spelling : Text.utf8 h.spelling = symbols ++ pads

theorem spells_of_size {size : Nat} {h : Hash} (pads : Nat) (bytes : h.bytes.length = size)
    (twoOver : size % 3 = 2)
    (spelling : Text.utf8 h.spelling =
      (Base64Url.sextets h.bytes).map Base64Url.symbol ++ List.replicate pads Base64Url.padByte) :
    h.Spells (4 * ((size + 2) / 3) - 1) ((Base64Url.sextets h.bytes).map Base64Url.symbol)
      (List.replicate pads Base64Url.padByte) := by
  have length := Base64Url.length_sextets_add_padding h.bytes
  have one : Base64Url.padding size = 1 := by rw [Base64Url.padding, twoOver]
  rw [bytes, one] at length
  refine ⟨?_, Base64Url.padByte_notMem_symbols h.bytes, spelling⟩
  rw [List.length_map]
  omega

/-- A size with two bytes over takes one equals sign. -/
theorem Padded.spells {size : Nat} {h : Hash} (padded : h.Padded size) (twoOver : size % 3 = 2) :
    ∃ symbols, h.Spells (4 * ((size + 2) / 3) - 1) symbols [Base64Url.padByte] := by
  refine ⟨_, spells_of_size 1 padded.length twoOver ?_⟩
  rw [padded.spelling, canonicalText, Base64Url.utf8_text, Base64Url.encode, padded.length,
    Base64Url.padding, twoOver]

theorem Sized.spells {size : Nat} {h : Hash} (sized : h.Sized size) (twoOver : size % 3 = 2) :
    ∃ symbols pads, h.Spells (4 * ((size + 2) / 3) - 1) symbols pads ∧
      (pads = [] ∨ pads = [Base64Url.padByte]) := by
  obtain ⟨pads, few, spelling⟩ := sized.spelling
  refine ⟨_, _, spells_of_size pads sized.length twoOver spelling, ?_⟩
  rw [Base64Url.padding, twoOver] at few
  obtain rfl | rfl : pads = 0 ∨ pads = 1 := by omega
  · exact .inl rfl
  · exact .inr rfl

theorem padded_ofBytes (bytes : List UInt8) (filled : bytes ≠ []) :
    (ofBytes bytes filled).Padded bytes.length := ⟨rfl, rfl⟩

theorem Padded.sized {size : Nat} {h : Hash} (padded : h.Padded size) : h.Sized size := by
  refine ⟨padded.length, Base64Url.padding size, Nat.le_refl _, ?_⟩
  rw [padded.spelling, canonicalText, Base64Url.utf8_text, Base64Url.encode, padded.length]

theorem Spells.eq {count : Nat} {h k : Hash} {symbols pads : List UInt8}
    (left : h.Spells count symbols pads) (right : k.Spells count symbols pads) : h = k :=
  eq_of_spelling (Text.utf8_injective (left.spelling.trans right.spelling.symm))

end Hash

end CoinLedger
