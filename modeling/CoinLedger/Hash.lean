import CoinLedger.Base64Url.Lemmas
import CoinLedger.Digest.Sha256
import CoinLedger.Malformed
import CoinLedger.Table
import CoinLedger.Text.Basic

/-!
Content addresses. A hash keeps the spelling it came in, but two hashes are the same when they
denote the same bytes, and hashes are ordered by their padded text. Main statement: the padded
texts of two hashes agree exactly when their bytes do.
-/

namespace CoinLedger

/-- The padded base64url text of some bytes. -/
def Base64Url.text (bytes : List UInt8) : String := Text.ofAscii (encode bytes)

@[simp] theorem Base64Url.utf8_text (bytes : List UInt8) :
    Text.utf8 (text bytes) = encode bytes :=
  Text.utf8_ofAscii fun _ => lt_of_mem_encode

theorem Base64Url.text_injective {bytes other : List UInt8} (h : text bytes = text other) :
    bytes = other :=
  encode_injective (by rw [← utf8_text, h, utf8_text])

theorem Base64Url.text_ne_empty {bytes : List UInt8} (h : bytes ≠ []) : text bytes ≠ "" := by
  intro he
  have := utf8_text bytes
  rw [he] at this
  exact encode_ne_nil h this.symm

/-- A non-empty base64url text together with the bytes that it denotes. -/
structure Hash where
  spelling : String
  bytes : List UInt8
  decodes : Base64Url.decode (Text.utf8 spelling) = .ok bytes
  spelled : spelling ≠ ""
  deriving DecidableEq

namespace Hash

def ofText (text : String) : Except Malformed Hash :=
  if h : text = "" then .error .emptyHash
  else match hd : Base64Url.decode (Text.utf8 text) with
    | .error fault => .error (.hashText text fault)
    | .ok bytes => .ok ⟨text, bytes, hd, h⟩

/-- The padded text of the bytes. Maps are keyed, and lists sorted, by it. -/
def canonicalText (h : Hash) : String := Base64Url.text h.bytes

/-- The padded spelling of some bytes. -/
def ofBytes (bytes : List UInt8) (h : bytes ≠ []) : Hash where
  spelling := Base64Url.text bytes
  bytes := bytes
  decodes := by simp
  spelled := Base64Url.text_ne_empty h

instance : Keyed Hash := ⟨fun h => (h.canonicalText, 0)⟩

theorem canonicalText_eq_iff {h k : Hash} : h.canonicalText = k.canonicalText ↔ h.bytes = k.bytes :=
  ⟨Base64Url.text_injective, fun e => by rw [canonicalText, canonicalText, e]⟩

/-- Two hashes share a map entry exactly when they denote the same bytes. -/
theorem key_eq_iff {h k : Hash} : Keyed.key h = Keyed.key k ↔ h.bytes = k.bytes := by
  simp [Keyed.key, canonicalText_eq_iff]

theorem eq_of_spelling {h k : Hash} (e : h.spelling = k.spelling) : h = k := by
  obtain ⟨s, b, hb, _⟩ := h
  obtain ⟨t, c, hc, _⟩ := k
  cases e
  cases Except.ok.inj (hb.symm.trans hc)
  rfl

theorem bytes_ne_nil (h : Hash) : h.bytes ≠ [] :=
  Base64Url.decode_ne_nil h.decodes fun e => h.spelled (Text.utf8_injective e)

def canonical (h : Hash) : Hash := ofBytes h.bytes h.bytes_ne_nil

/-- The bytes that a list of fields is digested as: each field after its size in bytes. -/
def fieldBytes (fields : List String) : List UInt8 :=
  fields.flatMap fun field =>
    Text.utf8 (toString (Text.utf8 field).length) ++ Text.utf8 field

/-- The content address of a list of fields. -/
def ofFields (fields : List String) : Hash :=
  ofBytes (Sha256.digest (fieldBytes fields)) (List.ne_nil_of_length_pos (by simp))

/-- How many bytes of the digest of a public key make its address. -/
def addressSize : Nat := 20

/-- The address that belongs to the bytes of a public key. -/
def ofPublicKey (key : List UInt8) : Hash :=
  ofBytes ((Sha256.digest key).take addressSize) (List.ne_nil_of_length_pos (by simp [addressSize]))

end Hash

end CoinLedger
